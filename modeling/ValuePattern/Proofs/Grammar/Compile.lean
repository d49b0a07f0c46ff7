import ValuePattern.Pattern
import ValuePattern.Proofs.Grammar.Completeness
import ValuePattern.Proofs.Grammar.Soundness
/-!
Reading a pattern decides the grammar: the texts that are read are those that the grammar derives,
and the tree read is the tree derived, spans included. So the grammar derives at most one tree from a
text.
-/
namespace ValuePattern.Pattern

open Text Place Grammar

variable {text : List Char}

theorem readRoot_eq_none_iff :
    readRoot text = .ok none ↔ (first text).skipSpace.ahead = [] := by
  rw [readRoot]
  dsimp only
  split
  · rename_i h
    simpa using h
  · rename_i h
    split
    · simpa using h
    · split <;> simpa using h

/-- A text with a value in it is read up to that value, and only blanks may come behind. -/
theorem readRoot_eq_some_iff {x : Node Span} :
    readRoot text = .ok (some x) ↔ (first text).skipSpace.ahead ≠ [] ∧
      ∃ q, ((first text).skipSpace.value .blank).outcome = (.ok x, q) ∧ q.skipSpace.ahead = [] := by
  rw [readRoot]
  dsimp only
  split
  · rename_i h
    simp_all
  · rename_i h
    have hne : (first text).skipSpace.ahead ≠ [] := by simpa using h
    split
    · rename_i hv
      simp [Reading.outcome, hv]
    · rename_i y hv
      split
      · rename_i hend
        simp_all [Reading.outcome, and_assoc]
      · rename_i hend
        simp_all [Reading.outcome]

/-- No tree is read if there is no value, or if something stands behind the value. -/
theorem readRoot_eq_error {f : Fault} {help : Option String}
    (h : readRoot text = .error (f, help)) :
    (∃ q, ((first text).skipSpace.value .blank).outcome = (.error f, q) ∧ help = none) ∨
      ∃ x q, ((first text).skipSpace.value .blank).outcome = (.ok x, q) ∧
        q.skipSpace.ahead ≠ [] ∧ f = ⟨.trailingContent, q.skipSpace.pos, q.skipSpace.stop⟩ ∧
        help = some singleExpressionHelp := by
  rw [readRoot] at h
  dsimp only at h
  split at h
  · simp at h
  split at h
  · rename_i e hv
    obtain ⟨rfl, rfl⟩ := Prod.mk.inj (Except.error.inj h)
    exact .inl ⟨_, Prod.ext hv rfl, rfl⟩
  rename_i x hv
  split at h
  · simp at h
  · rename_i hend
    obtain ⟨rfl, rfl⟩ := Prod.mk.inj (Except.error.inj h)
    exact .inr ⟨x, _, Prod.ext hv rfl, mt List.isEmpty_iff.mpr hend, rfl, rfl⟩

/-- What a value at the beginning takes, with the blanks before it and behind it, is a pattern. -/
theorem isPattern_of_value {x : Node Span} {q : Place}
    (h : ((first text).skipSpace.value .blank).outcome = (.ok x, q)) :
    ∃ t, (first text).Passes t q.skipSpace ∧ IsPattern t (some x) := by
  obtain ⟨w, hw, hblank⟩ := (first text).exists_passes_skipSpace
  obtain ⟨t, htake, htaken⟩ := value_sound _ h
  rw [skipSpace_skipSpace] at htake htaken
  have hstart := (first text).startsSolid_skipSpace
  rw [htake.ahead] at hstart
  obtain ⟨t, u, rfl, hu, hvalue⟩ := htaken.of_blank hstart.of_append
  obtain ⟨v, hv, hbehind⟩ := q.exists_passes_skipSpace
  have hposition : (first text).skipSpace.pos = w.length := by
    rw [hblank.pos]
    exact Nat.zero_add _
  rw [hposition] at hvalue
  refine ⟨w ++ t ++ (u ++ v), ?_, .value hw hvalue (blanks_append.mpr ⟨hu, hv⟩)⟩
  simpa using (hblank.trans htake).trans hbehind

/-- The trees that are read are derived. -/
theorem isPattern_of_readRoot {root : Option (Node Span)} (h : readRoot text = .ok root) :
    IsPattern text root := by
  cases root with
  | none =>
    obtain ⟨w, hw, hblank⟩ := (first text).exists_passes_skipSpace
    have hnil := readRoot_eq_none_iff.mp h
    have htext := hblank.ahead
    rw [hnil, List.append_nil] at htext
    rw [← htext] at hw
    exact .blank hw
  | some x =>
    obtain ⟨-, q, hq, hend⟩ := readRoot_eq_some_iff.mp h
    obtain ⟨t, hpass, hpattern⟩ := isPattern_of_value hq
    obtain rfl : text = t := by simpa [first, hend] using hpass.ahead
    exact hpattern

theorem exists_isValue_of_readRoot {x : Node Span} (h : readRoot text = .ok (some x)) :
    ∃ t n, IsValue t n x := by
  cases isPattern_of_readRoot h with
  | value _ hx _ => exact ⟨_, _, hx⟩

/-- The trees that are derived are read. -/
theorem readRoot_of_isPattern {root : Option (Node Span)} (h : IsPattern text root) :
    readRoot text = .ok root := by
  cases h with
  | blank hw =>
    rw [readRoot_eq_none_iff]
    simpa [first] using congrArg Place.ahead (skipSpace_append (n := 0) hw startsSolid_nil)
  | @value w t u x hw hx hu =>
    have hp : (first (w ++ t ++ u)).skipSpace = ⟨w.length, t ++ u⟩ := by
      simpa [first] using skipSpace_append (n := 0) hw (hx.startsSolid u)
    rw [readRoot_eq_some_iff]
    constructor
    · obtain ⟨c, v, rfl, -⟩ := hx.startsWith
      rw [hp]
      exact List.cons_ne_nil c (v ++ u)
    · obtain ⟨q, hq, hskip⟩ := hx.isRead Stop.separates_blank ⟨u, [], hu, by simp⟩
        ((skipSpace_skipSpace _).trans hp)
      have hend := skipSpace_append (n := w.length + t.length) hu startsSolid_nil
      rw [List.append_nil, ← hskip] at hend
      exact ⟨q, hq, by rw [hend]⟩

/-- Compiling keeps the source and reads it. -/
theorem compile_eq_ok_iff_readRoot {source : String} {p : Pattern} :
    compile source = .ok p ↔ p.source = source ∧ readRoot source.toList = .ok p.root := by
  rw [compile]
  constructor
  · intro h
    split at h
    · rename_i root hroot
      obtain rfl := Except.ok.inj h
      exact ⟨rfl, hroot⟩
    · simp at h
  · rintro ⟨rfl, h⟩
    rw [h]

/-- A source that is not compiled is one that is not read, and the error has the fault and the hint of
the reading, for the whole source. -/
theorem compile_eq_error_iff {source : String} {e : SyntaxError} :
    compile source = .error e ↔ e.source = source ∧ e.patternSpan = ⟨0, source.length⟩ ∧
      readRoot source.toList = .error (e.fault, e.help) := by
  rw [compile]
  constructor
  · intro h
    split at h
    · simp at h
    · rename_i f help hroot
      obtain rfl := Except.error.inj h
      exact ⟨rfl, rfl, hroot⟩
  · obtain ⟨_, _, f, help⟩ := e
    rintro ⟨hsource, hspan, h⟩
    dsimp only at hsource hspan h
    subst hsource hspan
    rw [h]
    rfl

theorem compile_eq_error {source : String} {e : SyntaxError} (h : compile source = .error e) :
    ∃ help, readRoot source.toList = .error (e.fault, help) :=
  ⟨e.help, (compile_eq_error_iff.mp h).2.2⟩

/-- A source is read as a pattern exactly if the grammar derives it, and then with the tree of its
derivation. -/
theorem compile_eq_ok_iff (source : String) (p : Pattern) :
    compile source = .ok p ↔ p.source = source ∧ IsPattern source.toList p.root := by
  rw [compile_eq_ok_iff_readRoot]
  exact and_congr_right' ⟨isPattern_of_readRoot, readRoot_of_isPattern⟩

end ValuePattern.Pattern
