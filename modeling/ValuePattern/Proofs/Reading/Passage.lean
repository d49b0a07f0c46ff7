import ValuePattern.Proofs.Reading.Outcome
import ValuePattern.Proofs.Text.Blanks
/-!
Passing over text. One place passes a text to reach another when the text stands between them; a
place is left behind by blanks, by a token, and by whatever a reading takes.
-/
namespace ValuePattern.Place

open Text

variable {p q r : Place} {t u : List Char}

/-- The text between two places, the second of which lies ahead. -/
structure Passes (p : Place) (t : List Char) (q : Place) : Prop where
  ahead : p.ahead = t ++ q.ahead
  pos : q.pos = p.pos + t.length

theorem passes_refl (p : Place) : p.Passes [] p := ⟨rfl, rfl⟩

theorem Passes.trans (h : p.Passes t q) (h' : q.Passes u r) : p.Passes (t ++ u) r := by
  constructor
  · rw [h.ahead, h'.ahead, List.append_assoc]
  · rw [h'.pos, h.pos, List.length_append, Nat.add_assoc]

theorem Passes.length_ahead (h : p.Passes t q) : p.ahead.length = t.length + q.ahead.length := by
  rw [h.ahead, List.length_append]

theorem passes_mk (n : Nat) (t r : List Char) : Passes ⟨n, t ++ r⟩ t ⟨n + t.length, r⟩ := ⟨rfl, rfl⟩

theorem passes_cons {n : Nat} {c : Char} {t u : List Char} (h : Passes ⟨n + 1, t⟩ u q) :
    Passes ⟨n, c :: t⟩ (c :: u) q := by
  constructor
  · simpa using h.ahead
  · rw [h.pos, List.length_cons, Nat.add_assoc, Nat.add_comm 1]

theorem Passes.next {n : Nat} {c : Char} {u : List Char} (h : p.Passes t ⟨n, c :: u⟩) :
    p.Passes (t ++ [c]) ⟨n + 1, u⟩ := h.trans ⟨rfl, rfl⟩

theorem exists_passes_skipSpace (p : Place) : ∃ w, Blanks w ∧ p.Passes w p.skipSpace :=
  ⟨_, blanks_takeWhile p.ahead, List.takeWhile_append_dropWhile.symm, rfl⟩

theorem startsSolid_skipSpace (p : Place) : StartsSolid p.skipSpace.ahead :=
  startsSolid_dropWhile p.ahead

theorem skipSpace_append {n : Nat} {w t : List Char} (hw : Blanks w) (ht : StartsSolid t) :
    skipSpace ⟨n, w ++ t⟩ = ⟨n + w.length, t⟩ := by
  simp only [skipSpace, takeWhile_blanks_append hw ht, dropWhile_blanks_append hw ht]

theorem skipSpace_solid {n : Nat} {t : List Char} (ht : StartsSolid t) :
    skipSpace ⟨n, t⟩ = ⟨n, t⟩ := skipSpace_append blanks_nil ht

@[simp] theorem skipSpace_skipSpace (p : Place) : p.skipSpace.skipSpace = p.skipSpace :=
  skipSpace_solid p.startsSolid_skipSpace

theorem skipSpace_mk {n : Nat} {c : Char} (h : p.skipSpace = ⟨n, c :: t⟩) :
    skipSpace ⟨n, c :: t⟩ = ⟨n, c :: t⟩ := by
  rw [← h, skipSpace_skipSpace]

/-- A string is read from behind the blanks as from in front of them. -/
theorem string_outcome_mk {n : Nat} {c : Char} (h : p.skipSpace = ⟨n, c :: t⟩)
    (hc : c = '"' ∨ c = '\'') : (string ⟨n, c :: t⟩).outcome = p.string.outcome := by
  have h' := skipSpace_mk h
  by_cases hclosed : c ∈ t
  · obtain ⟨inside, behind, rfl, hi⟩ := List.eq_append_cons_of_mem hclosed
    rw [string_outcome h hc hi, string_outcome h' hc hi]
  · rw [string_outcome_open h hc hclosed, string_outcome_open h' hc hclosed]

theorem literal_outcome_mk {n : Nat} {c : Char} {s : Stop} (h : p.skipSpace = ⟨n, c :: t⟩) :
    (literal s ⟨n, c :: t⟩).outcome = (p.literal s).outcome := by
  rw [literal_outcome h, literal_outcome (skipSpace_mk h)]

theorem passes_skipToken (s : Stop) (p : Place) : p.Passes (s.token p.ahead) (p.skipToken s) :=
  ⟨(s.token_append_after p.ahead).symm, rfl⟩

end ValuePattern.Place
