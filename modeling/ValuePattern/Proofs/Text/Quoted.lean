import Mathlib.Data.List.TakeWhile
import Mathlib.Data.Char
import ValuePattern.Text.Quoted
/-!
Texts in quotes end at their closing quote. Every escape says by its own characters where it ends and
which character it stands for, and none begins with a quote; so a quoted text with anything behind it
can be cut in one way only.
-/
namespace ValuePattern.Text

/-- A run of characters of one kind is cut off where the first character of another kind stands. -/
theorem eq_of_append_eq_append {P : Char → Bool} {x y r u : List Char}
    (hx : ∀ c ∈ x, P c = true) (hy : ∀ c ∈ y, P c = true) (hr : ∀ c ∈ r.head?, P c = false)
    (hu : ∀ c ∈ u.head?, P c = false) (h : x ++ r = y ++ u) : x = y ∧ r = u := by
  have hcut {z t : List Char} (hz : ∀ c ∈ z, P c = true) (ht : ∀ c ∈ t.head?, P c = false) :
      (z ++ t).takeWhile P = z := by
    rw [List.takeWhile_append_of_pos hz]
    cases t with
    | nil => simp
    | cons c t => simp [ht c rfl]
  obtain rfl : x = y := by rw [← hcut hx hr, h, hcut hy hu]
  exact ⟨rfl, List.append_cancel_left h⟩

theorem digitChar_inj {m n : Nat} (hm : m < 16) (hn : n < 16) (h : m.digitChar = n.digitChar) :
    m = n := by
  have hall : ∀ m < 16, ∀ n < 16, m.digitChar = n.digitChar → m = n := by decide
  exact hall m hm n hn h

theorem toDigits_inj {m n : Nat} (h : Nat.toDigits 16 m = Nat.toDigits 16 n) : m = n := by
  induction m using Nat.strongRecOn generalizing n with
  | ind m ih =>
    rw [Nat.toDigits_eq_if (by decide), Nat.toDigits_eq_if (n := n) (by decide)] at h
    have hlength (k : Nat) : 0 < (Nat.toDigits 16 k).length := Nat.length_toDigits_pos
    split at h <;> split at h
    case isTrue.isTrue hm hn => exact digitChar_inj hm hn (List.singleton_inj.mp h)
    case isTrue.isFalse =>
      have := hlength (n / 16)
      simpa using congrArg List.length h
    case isFalse.isTrue =>
      have := hlength (m / 16)
      simpa using congrArg List.length h
    case isFalse.isFalse hm hn =>
      obtain ⟨hhigh, hlow⟩ := List.append_inj' h rfl
      have hquotient := ih (m / 16) (by omega) hhigh
      have hrest := digitChar_inj (Nat.mod_lt m (by decide)) (Nat.mod_lt n (by decide))
        (List.singleton_inj.mp hlow)
      omega

/-- The letters that stand for characters behind a backslash. -/
def letters : List (Char × Char) :=
  [('"', '"'), ('\\', '\\'), ('n', '\n'), ('r', '\r'), ('t', '\t'), ('0', '\x00')]

/-- The ways to write a character between the quotes. -/
inductive IsEscape : Char → List Char → Prop
  | itself {c} : c ≠ '"' → c ≠ '\\' → IsEscape c [c]
  | letter {k c} : (k, c) ∈ letters → IsEscape c ['\\', k]
  | number {c} : IsEscape c (numbered c)

theorem isEscape_escaped (c : Char) : IsEscape c (escaped c) := by
  have letter {d k : Char} (h : (c == d) = true) (hk : (k, d) ∈ letters) :
      IsEscape c ['\\', k] := by
    rw [beq_iff_eq.mp h]
    exact .letter hk
  unfold escaped
  split
  · rename_i h
    rw [Bool.or_eq_true, beq_iff_eq, beq_iff_eq] at h
    rcases h with rfl | rfl <;> exact .letter (by decide)
  rename_i hspecial
  split
  · exact letter ‹_› (by decide)
  split
  · exact letter ‹_› (by decide)
  split
  · exact letter ‹_› (by decide)
  split
  · exact letter ‹_› (by decide)
  split
  · exact .number
  · rw [Bool.or_eq_true, beq_iff_eq, beq_iff_eq, not_or] at hspecial
    exact .itself hspecial.1 hspecial.2

variable {c d : Char} {x y r u : List Char}

theorem numbered_eq : numbered c ++ r = '\\' :: 'u' :: '{' :: (Nat.toDigits 16 c.toNat ++ '}' :: r) := by
  simp [numbered]

theorem ne_brace_of_mem_toDigits {n : Nat} {k : Char} (h : k ∈ Nat.toDigits 16 n) : k ≠ '}' := by
  induction n using Nat.strongRecOn with
  | ind n ih =>
    have hdigit (m : Nat) : m.digitChar ≠ '}' := Nat.digitChar_ne '}' (by decide)
    rw [Nat.toDigits_eq_if (by decide)] at h
    split at h
    · rw [List.mem_singleton.mp h]
      exact hdigit n
    · rcases List.mem_append.mp h with h | h
      · exact ih (n / 16) (by omega) h
      · rw [List.mem_singleton.mp h]
        exact hdigit (n % 16)

/-- The brace behind the digits ends the number of a character. -/
theorem eq_of_toDigits_append_eq
    (h : Nat.toDigits 16 c.toNat ++ '}' :: r = Nat.toDigits 16 d.toNat ++ '}' :: u) :
    c = d ∧ r = u := by
  have hdigits (n : Nat) : ∀ k ∈ Nat.toDigits 16 n, (k != '}') = true :=
    fun k hk => bne_iff_ne.mpr (ne_brace_of_mem_toDigits hk)
  obtain ⟨hnumber, hbehind⟩ :=
    eq_of_append_eq_append (hdigits _) (hdigits _) (by simp) (by simp) h
  exact ⟨Char.toNat_inj.mp (toDigits_inj hnumber), (List.cons.inj hbehind).2⟩

/-- An escape tells by itself where it ends. -/
theorem IsEscape.eq_of_append_eq (hx : IsEscape c x) (hy : IsEscape d y)
    (h : x ++ r = y ++ u) : c = d ∧ r = u := by
  have hletters : ∀ p ∈ letters, p.1 ≠ 'u' ∧ ∀ q ∈ letters, p.1 = q.1 → p = q := by decide
  cases hx with
  | itself _ hc =>
    cases hy with
    | itself => simpa using h
    | letter => simp [hc] at h
    | number => simp [numbered_eq, hc] at h
  | @letter k c hk =>
    cases hy with
    | itself _ hd => simp [hd.symm] at h
    | @letter l d hl =>
      obtain ⟨rfl, rfl⟩ : k = l ∧ r = u := by simpa using h
      exact ⟨(Prod.mk.inj ((hletters _ hk).2 _ hl rfl)).2, rfl⟩
    | number => simp [numbered_eq, (hletters _ hk).1] at h
  | number =>
    cases hy with
    | itself _ hd => simp [numbered_eq, hd.symm] at h
    | letter hl => simp [numbered_eq, (hletters _ hl).1.symm] at h
    | number => exact eq_of_toDigits_append_eq (by simpa [numbered_eq] using h)

theorem IsEscape.append_ne_quote (h : IsEscape c x) (r u : List Char) : x ++ r ≠ '"' :: u := by
  cases h with
  | itself hquote => simp [hquote]
  | letter => simp
  | number => simp [numbered_eq]

/-- The first quote that is not escaped closes the text. -/
theorem eq_of_escaped_append_eq {cs ds : List Char}
    (h : cs.flatMap escaped ++ '"' :: r = ds.flatMap escaped ++ '"' :: u) : cs = ds ∧ r = u := by
  induction cs generalizing ds with
  | nil =>
    cases ds with
    | nil => simpa using h
    | cons d ds =>
      rw [List.flatMap_cons, List.append_assoc] at h
      exact absurd h.symm ((isEscape_escaped d).append_ne_quote _ _)
  | cons c cs ih =>
    rw [List.flatMap_cons, List.append_assoc] at h
    cases ds with
    | nil => exact absurd h ((isEscape_escaped c).append_ne_quote _ _)
    | cons d ds =>
      rw [List.flatMap_cons, List.append_assoc] at h
      obtain ⟨rfl, htail⟩ := (isEscape_escaped c).eq_of_append_eq (isEscape_escaped d) h
      obtain ⟨rfl, hbehind⟩ := ih htail
      exact ⟨rfl, hbehind⟩

/-- A text in quotes is told apart from every other, whatever stands behind the two. -/
theorem eq_of_quoted_append_eq {s t : String}
    (h : (quoted s).toList ++ r = (quoted t).toList ++ u) : s = t ∧ r = u := by
  simp only [quoted, String.toList_ofList, List.cons_append, List.append_assoc, List.cons.injEq,
    true_and, List.nil_append] at h
  obtain ⟨htexts, hbehind⟩ := eq_of_escaped_append_eq h
  exact ⟨String.toList_inj.mp htexts, hbehind⟩

end ValuePattern.Text
