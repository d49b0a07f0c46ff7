import ValuePattern.Proofs.Command.Arms
import ValuePattern.Proofs.Command.Values
/-!
Dispatching values. The first arm that is not taken in ends a run before any input is opened. Otherwise
every value is answered by the label of the first pattern that matches it, and by a dash if none does:
all handlers are functions, all patterns are well formed, and no value that is read has a function in
it. So nothing but the end of the stream tells whether a run fails.
-/
namespace ValuePattern.Command

open Table (PassedOver)

/-- The ways in which arms answer a value: by the label given last with the first of their distinct
patterns that matches, or by a dash. -/
inductive Answers (pairs : List (String × String)) (v : Value) : String → Prop
  | label {before pattern after p label} :
      (pairs.map (·.1)).eraseDups = before ++ pattern :: after →
      (∀ source ∈ before, PassedOver v source) → Pattern.compile pattern = .ok p →
      p.accepts v = .ok true → pairs.reverse.lookup pattern = some label → Answers pairs v label
  | dash : (∀ source ∈ pairs.map (·.1), PassedOver v source) → Answers pairs v "-"

/-- How arms answer the value that a JSON value becomes. -/
def AnswersJson (pairs : List (String × String)) (json : Json) (line : String) : Prop :=
  ∃ v, Json.Becomes json v ∧ Answers pairs v line

/-- The ways in which dispatching goes. -/
inductive DispatchCourse (s : Surroundings) (arms : List String) (file? : Option String) :
    Outcome → Prop
  | rejected {before arm after pairs o} : arms = before ++ arm :: after →
      List.Forall₂ Takes before pairs → Rejects arm o → DispatchCourse s arms file? o
  | refused {pairs path why} : List.Forall₂ Takes arms pairs → file? = some path →
      s.openFile path = .refused why →
      DispatchCourse s arms file?
        ⟨1, "", "error: " ++ ("Failed to read " ++ path ++ ": " ++ why) ++ "\n"⟩
  | answered {pairs input lines} : List.Forall₂ Takes arms pairs → s.Gives file? input →
      List.Forall₂ (AnswersJson pairs) (s.decode input).values lines →
      DispatchCourse s arms file?
        ⟨if (s.decode input).cause? = none then 0 else 1, String.join (lines.map (· ++ "\n")),
          complaint (s.decode input).cause?⟩

section Answering

variable {table : Table} {registry : Registry} {arms : List String} {pairs : List (String × String)}
variable {v : Value} {line : String}

/-- The pattern of an arm that is taken in is one of the patterns of the arms. -/
theorem exists_compile_of_takes (h : List.Forall₂ Takes arms pairs) :
    ∀ source ∈ pairs.map (·.1), ∃ p, Pattern.compile source = .ok p := by
  induction h with
  | nil => simp
  | cons harm _ ih => exact List.forall_mem_cons.mpr ⟨harm.compiles, ih⟩

/-- A pattern that was given was given with a label. -/
theorem exists_lookup_of_mem {pattern : String} (h : pattern ∈ pairs.map (·.1)) :
    ∃ label, pairs.reverse.lookup pattern = some label := by
  rw [← Option.isSome_iff_exists, ← Option.ne_none_iff_isSome, Ne, List.lookup_eq_none_iff]
  obtain ⟨pair, hpair, rfl⟩ := List.mem_map.mp h
  intro hnone
  simpa using hnone pair (List.mem_reverse.mpr hpair)

/-- Arms that are taken in answer a plain value. -/
theorem exists_answers_of_plain (h : List.Forall₂ Takes arms pairs) (hplain : v.Plain) :
    ∃ line, Answers pairs v line := by
  obtain hpassed | ⟨before, pattern, after, heq, hbefore, hstop⟩ :=
    Table.forall_or_exists_first (PassedOver v) (pairs.map (·.1)).eraseDups
  · exact ⟨"-", .dash fun source hsource => hpassed source (List.mem_eraseDups.mpr hsource)⟩
  · have hmem : pattern ∈ pairs.map (·.1) := List.mem_eraseDups.mp (by simp [heq])
    obtain ⟨p, hcompile⟩ := exists_compile_of_takes h pattern hmem
    obtain ⟨label, hlabel⟩ := exists_lookup_of_mem hmem
    obtain ⟨matched, hmatched⟩ := exists_accepts_of_plain p hplain
    cases matched with
    | false => exact absurd ⟨p, hcompile, hmatched⟩ hstop
    | true => exact ⟨label, .label heq hbefore hcompile hmatched hlabel⟩

theorem exists_answersJson (h : List.Forall₂ Takes arms pairs) (json : Json) :
    ∃ line, AnswersJson pairs json line := by
  obtain ⟨line, hline⟩ := exists_answers_of_plain h (Value.plain_ofJson json)
  exact ⟨line, Value.exists_becomes_iff.mpr hline⟩

/-- All that a table is filled with are functions. -/
theorem Filled.allCallable (h : Filled table registry pairs) : Table.AllCallable table.arms := by
  intro arm harm
  obtain ⟨f, label, hf, -⟩ := h.labelled (Entries.get?_of_mem h.nodup harm)
  exact ⟨f, hf⟩

/-- What a filled table gives for a value is what the arms answer. -/
theorem Filled.dispatch_result (h : Filled table registry pairs) (hanswers : Answers pairs v line) :
    (table.dispatch registry.host v).result = .ok (some (.string line)) ∨
      (table.dispatch registry.host v).result = .ok none ∧ line = "-" := by
  cases hanswers with
  | @label before pattern after p label heq hbefore hcompile hmatched hlabel =>
    -- the arms of the table split where the distinct patterns do
    obtain ⟨taken, rest, harms, rfl, hrest⟩ := List.map_eq_append_iff.mp (h.names.trans heq)
    obtain ⟨⟨name, handler⟩, later, rfl, rfl, -⟩ := List.map_eq_cons_iff.mp hrest
    have hmem : (name, handler) ∈ table.arms := by simp [harms]
    obtain ⟨f, label, rfl, hlookup, hhost⟩ := h.labelled (Entries.get?_of_mem h.nodup hmem)
    obtain rfl := Option.some.inj (hlookup.symm.trans hlabel)
    have hcourse : Table.Course registry.host v table.arms _ :=
      .stopped h.allCallable harms (List.forall_mem_map.mp hbefore) (.matched hcompile hmatched)
    left
    rw [hcourse.dispatch_eq, hhost]
  | dash hpassed =>
    have hcourse : Table.Course registry.host v table.arms _ :=
      .exhausted h.allCallable fun arm harm => hpassed arm.1 (List.mem_eraseDups.mp
        (h.names ▸ List.mem_map_of_mem harm))
    right
    rw [hcourse.dispatch_eq]
    exact ⟨rfl, rfl⟩

theorem Filled.dispatchValue_eq (h : Filled table registry pairs)
    (hanswers : Answers pairs v line) : dispatchValue table registry v = .ok ⟨line, true⟩ := by
  rw [dispatchValue]
  rcases h.dispatch_result hanswers with hresult | ⟨hresult, rfl⟩ <;> rw [hresult]

end Answering

section Courses

variable {s : Surroundings} {arms : List String} {file? : Option String} {o : Outcome}

theorem exists_filled {pairs : List (String × String)} (h : List.Forall₂ Takes arms pairs) :
    ∃ table registry, Filled table registry pairs ∧
      addArms .empty .empty arms = .ok (table, registry) := by
  obtain ⟨table, registry, hfilled, hadd⟩ := filled_empty.exists_addArms h
  refine ⟨table, registry, hfilled, ?_⟩
  have hnil := hadd []
  rwa [List.append_nil] at hnil

/-- All arms are taken in, or a first one is not. -/
theorem takes_all_or_rejects (arms : List String) :
    (∃ pairs, List.Forall₂ Takes arms pairs) ∨
      ∃ before arm after pairs o, arms = before ++ arm :: after ∧ List.Forall₂ Takes before pairs ∧
        Rejects arm o := by
  obtain htakes | ⟨before, arm, after, harms, hbefore, hstop⟩ :=
    Table.forall_or_exists_first (fun arm => ∃ pair, Takes arm pair) arms
  · exact .inl (exists_forall₂ htakes)
  · obtain ⟨pairs, hpairs⟩ := exists_forall₂ hbefore
    obtain ⟨o, ho⟩ := (takes_or_rejects arm).resolve_left hstop
    exact .inr ⟨before, arm, after, pairs, o, harms, hpairs, ho⟩

/-- Arms that fill a table were all taken in. -/
theorem exists_takes_of_addArms {table : Table} {registry : Registry}
    (h : addArms .empty .empty arms = .ok (table, registry)) :
    ∃ pairs, List.Forall₂ Takes arms pairs := by
  refine (takes_all_or_rejects arms).resolve_right ?_
  rintro ⟨before, arm, after, pairs, o, rfl, hbefore, hrejects⟩
  obtain ⟨table, registry, -, hadd⟩ := filled_empty.exists_addArms hbefore
  rw [hadd, addArms_of_rejects hrejects] at h
  cases h

/-- Arms that fill a table answer the values of a stream, each by its line. -/
theorem Filled.answerStream_dispatchValue {table : Table} {registry : Registry} {stream : Json.Stream}
    {pairs : List (String × String)} {lines : List String} (h : Filled table registry pairs)
    (hlines : List.Forall₂ (AnswersJson pairs) stream.values lines) :
    answerStream (dispatchValue table registry) stream =
      ⟨if stream.cause? = none then 0 else 1, String.join (lines.map (· ++ "\n")),
        complaint stream.cause?⟩ := by
  have hanswers : List.Forall₂
      (fun json a => dispatchValue table registry (.ofJson json) = .ok a) stream.values
      (lines.map fun line => ⟨line, true⟩) :=
    List.forall₂_map_right_iff.mpr (hlines.imp fun _ _ hline =>
      h.dispatchValue_eq (Value.exists_becomes_iff.mp hline))
  have hsuccess : (lines.map fun line => (⟨line, true⟩ : Answer)).all (·.success) = true := by simp
  rw [answerStream_eq hanswers, hsuccess, Bool.and_true, List.map_map]
  simp only [Option.isNone_iff_eq_none]
  rfl

theorem DispatchCourse.run_eq (h : DispatchCourse s arms file? o) :
    run s (.dispatch arms file?) = o := by
  rw [run]
  cases h with
  | @rejected before arm after pairs o harms htaken hrejects =>
    obtain ⟨table, registry, -, hadd⟩ := filled_empty.exists_addArms htaken
    rw [harms, hadd, addArms_of_rejects hrejects]
  | refused htaken hfile hopened =>
    obtain ⟨table, registry, -, hadd⟩ := exists_filled htaken
    simp only [hadd, hfile, answerInput_of_refused hopened]
  | @answered pairs input lines htaken hgives hlines =>
    obtain ⟨table, registry, hfilled, hadd⟩ := exists_filled htaken
    simp only [hadd, answerInput_of_gives hgives, hfilled.answerStream_dispatchValue hlines]

theorem exists_dispatchCourse (s : Surroundings) (arms : List String) (file? : Option String) :
    ∃ o, DispatchCourse s arms file? o := by
  obtain ⟨pairs, hpairs⟩ | ⟨before, arm, after, pairs, o, harms, hpairs, hrejects⟩ :=
    takes_all_or_rejects arms
  · obtain ⟨input, hgives⟩ | ⟨path, why, hfile, hopened⟩ := gives_or_refused s file?
    · obtain ⟨lines, hlines⟩ := exists_forall₂ fun json (_ : json ∈ (s.decode input).values) =>
        exists_answersJson hpairs json
      exact ⟨_, .answered hpairs hgives hlines⟩
    · exact ⟨_, .refused hpairs hfile hopened⟩
  · exact ⟨o, .rejected harms hpairs hrejects⟩

/-- Dispatching takes its one course. Whatever value is decoded, the table of the arms has an answer
for it or none matches; so no pattern is malformed by then, no handler is anything but a function, and
no value is one that matching cannot answer. -/
theorem run_dispatch_iff_course (s : Surroundings) (arms : List String) (file? : Option String) :
    (∀ o, run s (.dispatch arms file?) = o ↔ DispatchCourse s arms file? o) ∧
    (∀ table registry input, addArms .empty .empty arms = .ok (table, registry) →
      s.Gives file? input → ∀ json ∈ (s.decode input).values, ∀ v, Json.Becomes json v →
        ∃ answer, (table.dispatch registry.host v).result = .ok answer) := by
  constructor
  · intro o
    obtain ⟨o', ho'⟩ := exists_dispatchCourse s arms file?
    refine ⟨?_, fun h => h.run_eq⟩
    rintro rfl
    rwa [ho'.run_eq]
  · intro table registry input hadd hgives json hjson v hv
    obtain ⟨pairs, hpairs⟩ := exists_takes_of_addArms hadd
    obtain ⟨table', registry', hfilled, hadd'⟩ := exists_filled hpairs
    obtain ⟨rfl, rfl⟩ := Prod.mk.inj (Except.ok.inj (hadd.symm.trans hadd'))
    obtain ⟨line, hline⟩ := exists_answers_of_plain hpairs (Value.plain_of_becomes hv)
    rcases hfilled.dispatch_result hline with hresult | ⟨hresult, -⟩ <;> exact ⟨_, hresult⟩

/-- A pattern that is given twice keeps its place and takes the later label, and the lines for the values
before a byte that begins none stay. -/
theorem run_dispatch_iff_course_given_twice :
    let arms := ["[]=a", "{}=b", "[]=c"]
    let text : List UInt8 := [0x7b, 0x7d, 0x5b, 0x5d, 0x0a, 0xff]
    let stream : Json.Stream :=
      ⟨[.object [], .array []], some "expected value at line 2 column 1"⟩
    let s : Surroundings := ⟨fun _ => .refused "no such file", ⟨text, none⟩, fun _ => stream⟩
    run s (.dispatch arms none) = ⟨1, "b\nc\n",
        "error: " ++ ("Invalid JSON input: " ++ "expected value at line 2 column 1") ++ "\n"⟩ ∧
      ∃ table registry, addArms .empty .empty arms = .ok (table, registry) ∧
        s.Gives none ⟨text, none⟩ ∧ .array [] ∈ (s.decode ⟨text, none⟩).values ∧
        Json.Becomes (.array []) (.array []) ∧
        ∃ answer, (table.dispatch registry.host (.array [])).result = .ok answer := by
  intro arms text stream s
  let pairs := [("[]", "a"), ("{}", "b"), ("[]", "c")]
  have harray : Pattern.compile "[]" = .ok ⟨"[]", some (.array ⟨0, 2⟩ [] false)⟩ := by cbv
  have hobject : Pattern.compile "{}" = .ok ⟨"{}", some (.object ⟨0, 2⟩ [] false)⟩ := by cbv
  have htakes : List.Forall₂ Takes arms pairs :=
    .cons ⟨⟨rfl, by simp⟩, _, harray⟩ (.cons ⟨⟨rfl, by simp⟩, _, hobject⟩
      (.cons ⟨⟨rfl, by simp⟩, _, harray⟩ .nil))
  have hlines : List.Forall₂ (AnswersJson pairs) (s.decode ⟨text, none⟩).values ["b", "c"] := by
    have hfirst : (pairs.map (·.1)).eraseDups = [] ++ "[]" :: ["{}"] := by decide
    have hsecond : (pairs.map (·.1)).eraseDups = ["[]"] ++ "{}" :: [] := by decide
    have hnot : PassedOver (.object []) "[]" := ⟨_, harray, rfl⟩
    have hobjectLine : Answers pairs (.object []) "b" :=
      .label hsecond (by simpa using hnot) hobject rfl rfl
    have harrayLine : Answers pairs (.array []) "c" := .label hfirst (by simp) harray rfl rfl
    exact .cons ⟨_, Value.becomes_ofJson _, hobjectLine⟩
      (.cons ⟨_, Value.becomes_ofJson _, harrayLine⟩ .nil)
  have hlast : .array [] ∈ stream.values := by simp [stream]
  obtain ⟨table, registry, -, hadd⟩ := exists_filled htakes
  have hbecomes : Json.Becomes (.array []) (.array []) := .array .nil
  refine ⟨?_, table, registry, hadd, .stdin, hlast, hbecomes, ?_⟩
  · exact ((run_dispatch_iff_course s arms none).1 _).mpr (.answered htakes .stdin hlines)
  · exact (run_dispatch_iff_course s arms none).2 table registry _ hadd .stdin _ hlast _ hbecomes

end Courses

end ValuePattern.Command
