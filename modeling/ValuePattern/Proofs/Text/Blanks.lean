import Mathlib.Data.List.TakeWhile
import ValuePattern.Text.Blank
/-!
Runs of blanks, before a token and behind one. What is skipped before a token is the longest run of
blanks there, and what trimming takes from the end of a token is a run of blanks.
-/
namespace ValuePattern.Text

/-- A run of blanks, which may be empty. -/
def Blanks (w : List Char) : Prop := ∀ c ∈ w, isBlank c = true

/-- A text whose first character, if there is one, is no blank. -/
def StartsSolid (t : List Char) : Prop := ∀ c ∈ t.head?, isBlank c = false

@[simp] theorem blanks_nil : Blanks [] := by simp [Blanks]

@[simp] theorem blanks_cons {c : Char} {w : List Char} :
    Blanks (c :: w) ↔ isBlank c = true ∧ Blanks w := by simp [Blanks]

@[simp] theorem blanks_append {w u : List Char} : Blanks (w ++ u) ↔ Blanks w ∧ Blanks u := by
  simp [Blanks, or_imp, forall_and]

theorem blanks_takeWhile (t : List Char) : Blanks (t.takeWhile isBlank) := by
  intro c hc
  exact List.mem_takeWhile_imp hc

@[simp] theorem startsSolid_nil : StartsSolid [] := by simp [StartsSolid]

@[simp] theorem startsSolid_cons {c : Char} {t : List Char} :
    StartsSolid (c :: t) ↔ isBlank c = false := by simp [StartsSolid]

theorem StartsSolid.of_append {t r : List Char} (h : StartsSolid (t ++ r)) : StartsSolid t := by
  cases t with
  | nil => simp
  | cons c t => simpa using h

/-- A run of blanks at the beginning of a text that starts with no blank is empty. -/
theorem Blanks.eq_nil {w r : List Char} (hw : Blanks w) (h : StartsSolid (w ++ r)) : w = [] := by
  cases w with
  | nil => rfl
  | cons c w => simp_all

theorem startsSolid_dropWhile (t : List Char) : StartsSolid (t.dropWhile isBlank) := by
  intro c hc
  have h := List.head?_dropWhile_not isBlank t
  rw [Option.mem_def.mp hc] at h
  simpa using h

/-- Skipping takes a run of blanks and all of it. -/
theorem takeWhile_blanks_append {w t : List Char} (hw : Blanks w) (ht : StartsSolid t) :
    (w ++ t).takeWhile isBlank = w := by
  rw [List.takeWhile_append_of_pos hw]
  cases t with
  | nil => simp
  | cons c t => simp [startsSolid_cons.mp ht]

theorem dropWhile_blanks_append {w t : List Char} (hw : Blanks w) (ht : StartsSolid t) :
    (w ++ t).dropWhile isBlank = t := by
  rw [List.dropWhile_append_of_pos hw]
  cases t with
  | nil => simp
  | cons c t => simp [startsSolid_cons.mp ht]

/-- Trimming takes nothing but blanks. -/
theorem trimEnd_append_blanks (t : List Char) : ∃ w, Blanks w ∧ trimEnd t ++ w = t := by
  refine ⟨(t.reverse.takeWhile isBlank).reverse, ?_, ?_⟩
  · intro c hc
    exact blanks_takeWhile _ c (List.mem_reverse.mp hc)
  · rw [trimEnd, ← List.reverse_append, List.takeWhile_append_dropWhile, List.reverse_reverse]

/-- Trimming takes all the blanks behind a text without blanks. -/
theorem trimEnd_append {t w : List Char} (ht : ∀ c ∈ t, isBlank c = false) (hw : Blanks w) :
    trimEnd (t ++ w) = t := by
  have hr : Blanks w.reverse := fun c hc => hw c (List.mem_reverse.mp hc)
  have hs : StartsSolid t.reverse := by
    intro c hc
    exact ht c (List.mem_reverse.mp (List.mem_of_mem_head? hc))
  rw [trimEnd, List.reverse_append, dropWhile_blanks_append hr hs, List.reverse_reverse]

end ValuePattern.Text
