import Mathlib
import ValuePattern.Proofs.Command.Values
import ValuePattern.Proofs.Json.Documents
/-!
Checking values. A malformed pattern ends a run before any input is opened. Otherwise every value gets
its line, and the run succeeds if the stream comes to its end and every line says that its value
matches; so documents with blanks between them and others are checked as one after the other would be.
-/
namespace ValuePattern.Command

/-- Whether the value that a JSON value becomes matches. -/
def MatchesAs (p : Pattern) (json : Json) (b : Bool) : Prop :=
  ∃ v, Json.Becomes json v ∧ p.accepts v = .ok b

/-- What checking the values of a stream leaves behind: a line for each value, a code that says
whether the stream came to its end and all of them match, and a complaint about a bad stream. -/
structure Checked (p : Pattern) (s : Json.Stream) (answers : List Bool) (o : Outcome) : Prop where
  answered : List.Forall₂ (MatchesAs p) s.values answers
  stdout : o.stdout = String.join (answers.map fun b => (if b then "true" else "false") ++ "\n")
  code : o.code = if s.cause? = none ∧ ∀ b ∈ answers, b = true then 0 else 1
  stderr : o.stderr = complaint s.cause?

/-- Bytes from wherever they are asked for. -/
def everywhere (decode : Json.Decoder) (bytes : List UInt8) : Surroundings :=
  ⟨fun _ => .content ⟨bytes, none⟩, ⟨bytes, none⟩, decode⟩

section Checking

variable {p : Pattern} {s t : Json.Stream} {answers others : List Bool}

theorem checked_answerStream (h : List.Forall₂ (MatchesAs p) s.values answers) :
    Checked p s answers (answerStream (checkValue p) s) := by
  let answerOf (b : Bool) : Answer := ⟨if b then "true" else "false", b⟩
  have hanswers : List.Forall₂ (fun json a => checkValue p (.ofJson json) = .ok a) s.values
      (answers.map answerOf) := by
    refine List.forall₂_map_right_iff.mpr (h.imp fun json b hb => ?_)
    rw [checkValue, Value.exists_becomes_iff.mp hb]
  rw [answerStream_eq hanswers]
  refine ⟨h, ?_, ?_, rfl⟩
  · rw [List.map_map]
    rfl
  · simp only [Bool.and_eq_true, Option.isNone_iff_eq_none, List.all_map, List.all_eq_true]
    rfl

theorem exists_answers (p : Pattern) (jsons : List Json) :
    ∃ answers, List.Forall₂ (MatchesAs p) jsons answers := by
  refine exists_forall₂ fun json _ => ?_
  obtain ⟨b, hb⟩ := exists_accepts_of_plain p (Value.plain_ofJson json)
  exact ⟨b, Value.exists_becomes_iff.mpr hb⟩

theorem Checked.code_eq_zero_iff {o : Outcome} (h : Checked p s answers o) :
    o.code = 0 ↔ s.cause? = none ∧ ∀ b ∈ answers, b = true := by
  rw [h.code]
  split <;> simp_all

/-- The lines for a stream that goes on stand behind those for its beginning, and checking it succeeds
if checking both of its parts does. -/
theorem Checked.append {o o' o'' : Outcome} (hs : Checked p s answers o)
    (ht : Checked p t others o') (hs' : s.cause? = none)
    (h : Checked p ⟨s.values ++ t.values, t.cause?⟩ (answers ++ others) o'') :
    o''.stdout = o.stdout ++ o'.stdout ∧ (o''.code = 0 ↔ o.code = 0 ∧ o'.code = 0) := by
  constructor
  · rw [h.stdout, List.map_append, String.join_append, hs.stdout, ht.stdout]
  · rw [h.code_eq_zero_iff, hs.code_eq_zero_iff, ht.code_eq_zero_iff, List.forall_mem_append]
    tauto

end Checking

theorem gives_everywhere (decode : Json.Decoder) (bytes : List UInt8) (file? : Option String) :
    (everywhere decode bytes).Gives file? ⟨bytes, none⟩ := by
  cases file? with
  | none => exact .stdin
  | some path => exact .file rfl

section Running

variable {pattern : String} {file? : Option String}

theorem run_check_of_error {e : SyntaxError} (h : Pattern.compile pattern = .error e)
    (s : Surroundings) :
    run s (.check pattern file?) = ⟨2, "", Diagnostic.render .plain e ++ "\n"⟩ := by
  rw [run, h]
  rfl

theorem checked_run {p : Pattern} {s : Surroundings} {input : Input} {answers : List Bool}
    (h : Pattern.compile pattern = .ok p) (hgives : s.Gives file? input)
    (hanswers : List.Forall₂ (MatchesAs p) (s.decode input).values answers) :
    Checked p (s.decode input) answers (run s (.check pattern file?)) := by
  simpa only [run, h, answerInput_of_gives hgives] using checked_answerStream hanswers

/-- Checking documents and others behind them leaves behind what checking the ones and then the others
does. -/
theorem run_check_append {decode : Json.Decoder} {IsDocument : List UInt8 → Json → Prop}
    {a blanks b : List UInt8} {jsons others : List Json} (h : Json.Yields decode IsDocument)
    (ha : Json.Documents IsDocument a jsons) (hblanks : Json.AllBlank blanks) (hne : blanks ≠ [])
    (hb : Json.Documents IsDocument b others) :
    let out := fun bytes => run (everywhere decode bytes) (.check pattern file?)
    (out (a ++ (blanks ++ b))).stdout = (out a).stdout ++ (out b).stdout ∧
      ((out (a ++ (blanks ++ b))).code = 0 ↔ (out a).code = 0 ∧ (out b).code = 0) := by
  intro out
  cases hcompile : Pattern.compile pattern with
  | error e =>
    have hout (bytes : List UInt8) :
        out bytes = ⟨2, "", Diagnostic.render .plain e ++ "\n"⟩ := run_check_of_error hcompile _
    simp [hout]
  | ok p =>
    have hchecked {bytes : List UInt8} {values : List Json} {answers : List Bool}
        (hbytes : Json.Documents IsDocument bytes values)
        (hanswers : List.Forall₂ (MatchesAs p) values answers) :
        Checked p ⟨values, none⟩ answers (out bytes) := by
      have hdecode : (everywhere decode bytes).decode ⟨bytes, none⟩ = ⟨values, none⟩ :=
        h bytes values hbytes
      rw [← hdecode]
      exact checked_run hcompile (gives_everywhere decode bytes file?) (by rwa [hdecode])
    obtain ⟨answers, hanswers⟩ := exists_answers p jsons
    obtain ⟨answers', hanswers'⟩ := exists_answers p others
    exact (hchecked ha hanswers).append (hchecked hb hanswers') rfl
      (hchecked (ha.append hblanks hne hb) (List.rel_append hanswers hanswers'))

/-- Checking ends at a malformed pattern whatever there is to be read. With a pattern, matching answers
every value that is decoded, and the lines, the code and the complaint tell of all of them; only a file
that does not open leaves nothing to answer. And a decoder that yields the values of documents makes
what comes of documents and others behind them come of the ones and then of the others. -/
theorem run_check (pattern : String) (file? : Option String) :
    (∀ e, Pattern.compile pattern = .error e → ∀ s,
      run s (.check pattern file?) = ⟨2, "", Diagnostic.render .plain e ++ "\n"⟩) ∧
    (∀ p, Pattern.compile pattern = .ok p → ∀ s : Surroundings,
      (∀ input, s.Gives file? input →
        ∃ answers, Checked p (s.decode input) answers (run s (.check pattern file?))) ∧
      (∀ path why, file? = some path → s.openFile path = .refused why →
        run s (.check pattern file?) =
          ⟨1, "", "error: " ++ ("Failed to read " ++ path ++ ": " ++ why) ++ "\n"⟩)) ∧
    (∀ decode IsDocument, Json.Yields decode IsDocument → ∀ a blanks b jsons others,
      Json.Documents IsDocument a jsons → Json.AllBlank blanks → blanks ≠ [] →
      Json.Documents IsDocument b others →
      let out := fun bytes => run (everywhere decode bytes) (.check pattern file?)
      (out (a ++ (blanks ++ b))).stdout = (out a).stdout ++ (out b).stdout ∧
        ((out (a ++ (blanks ++ b))).code = 0 ↔ (out a).code = 0 ∧ (out b).code = 0)) := by
  refine ⟨fun e he s => run_check_of_error he s, fun p hcompile s => ⟨?_, ?_⟩, ?_⟩
  · intro input hgives
    obtain ⟨answers, hanswers⟩ := exists_answers p (s.decode input).values
    exact ⟨answers, checked_run hcompile hgives hanswers⟩
  · rintro path why rfl hopened
    simp only [run, hcompile, answerInput_of_refused hopened]
  · intro decode IsDocument hyields a blanks b jsons others ha hblanks hne hb
    exact run_check_append hyields ha hblanks hne hb

/-- A malformed pattern is noticed although its file does not open. An array and an object are checked,
and so are they with another array behind a line end. -/
theorem run_check_empty_containers :
    let e : SyntaxError := .ofFault "[" ⟨.emptyField .value, ⟨1, 1⟩⟩
    let p : Pattern := ⟨"[]", some (.array ⟨0, 2⟩ [] false)⟩
    let decode : Json.Decoder := fun input => Json.readContainers input.bytes
    let a : List UInt8 := [0x5b, 0x5d, 0x20, 0x7b, 0x7d]
    let b : List UInt8 := [0x5b, 0x5d]
    let s : Surroundings := ⟨fun _ => .refused "no such file", ⟨a, none⟩, decode⟩
    let out := fun bytes => run (everywhere decode bytes) (.check "[]" none)
    (Pattern.compile "[" = .error e ∧
      run s (.check "[" (some "f")) = ⟨2, "", Diagnostic.render .plain e ++ "\n"⟩) ∧
    (Pattern.compile "[]" = .ok p ∧ s.Gives none ⟨a, none⟩ ∧
      s.decode ⟨a, none⟩ = ⟨[.array [], .object []], none⟩ ∧
      ∃ answers, Checked p (s.decode ⟨a, none⟩) answers (run s (.check "[]" none))) ∧
    (s.openFile "f" = .refused "no such file" ∧ run s (.check "[]" (some "f")) =
      ⟨1, "", "error: " ++ ("Failed to read " ++ "f" ++ ": " ++ "no such file") ++ "\n"⟩) ∧
    Json.Yields decode Json.IsEmptyContainer ∧
      Json.Documents Json.IsEmptyContainer a [.array [], .object []] ∧ Json.AllBlank [0x0a] ∧
      Json.Documents Json.IsEmptyContainer b [.array []] ∧
      (out (a ++ ([0x0a] ++ b))).stdout = (out a).stdout ++ (out b).stdout ∧
      ((out (a ++ ([0x0a] ++ b))).code = 0 ↔ (out a).code = 0 ∧ (out b).code = 0) := by
  intro e p decode a b s out
  have herror : Pattern.compile "[" = .error e := by cbv
  have hcompile : Pattern.compile "[]" = .ok p := by cbv
  have hyields : Json.Yields decode Json.IsEmptyContainer := Json.yields_readContainers
  have hnothing : Json.AllBlank [] := by simp [Json.AllBlank]
  have hspace : Json.AllBlank [0x20] := by simp [Json.AllBlank, Json.IsBlank]
  have hline : Json.AllBlank [0x0a] := by simp [Json.AllBlank, Json.IsBlank]
  have ha : Json.Documents Json.IsEmptyContainer a [.array [], .object []] :=
    Json.documents_array ((Json.documents_object (.blank hnothing)).behind_blanks hspace)
  have hb : Json.Documents Json.IsEmptyContainer b [.array []] :=
    Json.documents_array (.blank hnothing)
  have hfile := (run_check "[]" (some "f")).2.1 p hcompile s
  refine ⟨⟨herror, (run_check "[" (some "f")).1 e herror s⟩,
    ⟨hcompile, .stdin, hyields a _ ha, ?_⟩, ⟨rfl, hfile.2 "f" _ rfl rfl⟩, hyields, ha, hline, hb, ?_⟩
  · exact ((run_check "[]" none).2.1 p hcompile s).1 ⟨a, none⟩ .stdin
  · exact (run_check "[]" none).2.2 decode _ hyields a [0x0a] b _ _ ha hline (by simp) hb

end Running

end ValuePattern.Command
