import ValuePattern.Proofs.Grammar.Basic
import ValuePattern.Proofs.Numeral.Grammar
/-!
Literals and their characters. A token is read as a literal exactly if the grammar derives it as one,
and no literal has a character that ends a token, is a blank, or begins another kind of value.
-/
namespace ValuePattern

/-- The characters of words and numbers: digits, letters of ASCII, points and signs. -/
def Text.isPlain (c : Char) : Bool :=
  let n := c.toNat
  (48 ≤ n && n ≤ 57) || (65 ≤ n && n ≤ 90) || (97 ≤ n && n ≤ 122) || n == 46 || n == 43 || n == 45

namespace Text

theorem isPlain_iff {c : Char} : isPlain c = true ↔ (48 ≤ c.toNat ∧ c.toNat ≤ 57) ∨
    (65 ≤ c.toNat ∧ c.toNat ≤ 90) ∨ (97 ≤ c.toNat ∧ c.toNat ≤ 122) ∨ c.toNat = 46 ∨ c.toNat = 43 ∨
    c.toNat = 45 := by
  simp [isPlain, or_assoc]

theorem isPlain_of_isDigit {c : Char} (h : c.isDigit = true) : isPlain c = true :=
  isPlain_iff.mpr (.inl (Char.isDigit_iff_toNat.mp h))

theorem isBlank_of_isPlain {c : Char} (h : isPlain c = true) : isBlank c = false := by
  rw [isPlain_iff] at h
  simp only [isBlank, Bool.or_eq_false_iff, Bool.and_eq_false_iff, decide_eq_false_iff_not,
    beq_eq_false_iff_ne]
  omega

theorem ne_of_isPlain {c d : Char} (h : isPlain c = true) (hd : isPlain d = false) : c ≠ d := by
  rintro rfl
  simp [hd] at h

end Text

namespace Decimal

theorem IsMantissa.isPlain {m : List Char} (h : IsMantissa m) : ∀ c ∈ m, Text.isPlain c = true := by
  intro c hc
  rcases h.char c hc with hdigit | rfl
  · exact Text.isPlain_of_isDigit hdigit
  · decide

theorem IsExponent.isPlain {e : List Char} (h : IsExponent e) : ∀ c ∈ e, Text.isPlain c = true := by
  cases h with
  | none => simp
  | @some letter sign row hletter hsign hrow =>
    have hfront : (letter :: sign).all Text.isPlain = true := by
      simp only [List.mem_cons, List.not_mem_nil, or_false] at hletter hsign
      rcases hletter with rfl | rfl <;> rcases hsign with rfl | rfl | rfl <;> decide
    intro c hc
    rw [← List.cons_append, List.mem_append] at hc
    rcases hc with hc | hc
    · exact List.all_eq_true.mp hfront c hc
    · exact Text.isPlain_of_isDigit (hrow.2 c hc)

end Decimal

namespace Numeral

theorem IsUnsigned.isPlain {t : List Char} (h : IsUnsigned t) : ∀ c ∈ t, Text.isPlain c = true := by
  cases h with
  | infinity => exact List.all_eq_true.mp (by decide)
  | decimal hm he => exact fun c hc => (List.mem_append.mp hc).elim (hm.isPlain c) (he.isPlain c)

theorem IsNumeral.isPlain {t : List Char} (h : IsNumeral t) : ∀ c ∈ t, Text.isPlain c = true := by
  cases h with
  | unsigned hu => exact hu.isPlain
  | positive hu => exact List.forall_mem_cons.mpr ⟨by decide, hu.isPlain⟩
  | negative hu => exact List.forall_mem_cons.mpr ⟨by decide, hu.isPlain⟩
  | @based b mark row hmark _ hdigits =>
    have hmarks : b.marks.all Text.isPlain = true := by cases b <;> decide
    have hall : b.digits.all Text.isPlain = true := by cases b <;> decide
    have hmark' := List.all_eq_true.mp hmarks mark hmark
    refine List.forall_mem_cons.mpr ⟨by decide, List.forall_mem_cons.mpr ⟨hmark', ?_⟩⟩
    exact fun c hc => List.all_eq_true.mp hall c (hdigits c hc)

/-- A number that begins with a point has a digit behind it. -/
theorem IsUnsigned.isDigit_of_point {t u : List Char} (h : IsUnsigned u) (ht : u = '.' :: t) :
    ∃ c v, t = c :: v ∧ c.isDigit = true := by
  have point {w v : List Char} (hw : Decimal.IsDigits w) : w ++ v ≠ '.' :: t := by
    obtain ⟨c, r, rfl, hc⟩ := hw.exists_cons
    intro heq
    rw [(List.cons.inj heq).1] at hc
    exact absurd hc (by decide)
  cases h with
  | infinity => exact absurd (List.cons.inj ht).1 (by decide)
  | decimal hm _ =>
    cases hm with
    | whole hw => exact absurd ht (point hw)
    | point hw _ =>
      rw [List.append_assoc] at ht
      exact absurd ht (point hw)
    | fraction hf =>
      obtain ⟨c, r, rfl, hc⟩ := hf.exists_cons
      exact ⟨c, _, (List.cons.inj ht).2.symm, hc⟩

theorem IsNumeral.isDigit_of_point {t : List Char} (h : IsNumeral ('.' :: t)) :
    ∃ c u, t = c :: u ∧ c.isDigit = true := by
  cases h with
  | unsigned hu => exact hu.isDigit_of_point rfl

end Numeral

namespace Grammar

open Text

variable {t : List Char} {s : Span} {x : Node Span}

/-- The tokens that are read as literals are those that the grammar derives. -/
theorem ofToken?_eq_some_iff : Node.ofToken? s t = some x ↔ IsLiteral t s x := by
  constructor
  · intro h
    unfold Node.ofToken? at h
    split at h
    · rename_i ht
      obtain rfl := Option.some.inj h
      exact ht ▸ .trueWord
    split at h
    · rename_i ht
      obtain rfl := Option.some.inj h
      exact ht ▸ .falseWord
    split at h
    · rename_i ht
      obtain rfl := Option.some.inj h
      exact ht ▸ .nullWord
    split at h
    · rename_i ht
      obtain rfl := Option.some.inj h
      exact ht ▸ .missingWord
    · obtain ⟨n, hn, rfl⟩ := Option.map_eq_some_iff.mp h
      exact .number hn
  · intro h
    cases h with
    | trueWord => simp [Node.ofToken?]
    | falseWord => simp [Node.ofToken?]
    | nullWord => simp [Node.ofToken?]
    | missingWord => simp [Node.ofToken?]
    | @number t s n hn =>
      have notWord {word : List Char} (hw : Numeral.read? word = none) : t ≠ word := by
        rintro rfl
        simp [hw] at hn
      have htrue : Numeral.read? "true".toList = none := by decide
      have hfalse : Numeral.read? "false".toList = none := by decide
      have hnull : Numeral.read? "null".toList = none := by decide
      have hmissing : Numeral.read? "missing".toList = none := by decide
      rw [Node.ofToken?, if_neg (notWord htrue), if_neg (notWord hfalse), if_neg (notWord hnull),
        if_neg (notWord hmissing), hn]
      rfl

theorem IsLiteral.isPlain (h : IsLiteral t s x) : ∀ c ∈ t, Text.isPlain c = true := by
  cases h with
  | number hn => exact (Numeral.isNumeral_of_read? hn).isPlain
  | _ => exact List.all_eq_true.mp (by decide)

theorem IsLiteral.ne_nil (h : IsLiteral t s x) : t ≠ [] := by
  cases h with
  | number hn =>
    rintro rfl
    exact absurd hn (by simp [show Numeral.read? [] = none by decide])
  | _ => decide

/-- A literal with any text behind it does not begin with the rest marker. -/
theorem IsLiteral.not_restMarker_prefix (h : IsLiteral t s x) (r : List Char) :
    ¬restMarker <+: t ++ r := by
  rintro ⟨u, hu⟩
  cases t with
  | nil => exact h.ne_nil rfl
  | cons c t =>
    obtain ⟨rfl, ht⟩ : '.' = c ∧ ['.', '.'] ++ u = t ++ r := by simpa [restMarker] using hu
    cases h with
    | number hn =>
      obtain ⟨d, v, rfl, hd⟩ := (Numeral.isNumeral_of_read? hn).isDigit_of_point
      obtain ⟨rfl, -⟩ : '.' = d ∧ ['.'] ++ u = v ++ r := by simpa using ht
      exact absurd hd (by decide)

end Grammar

end ValuePattern
