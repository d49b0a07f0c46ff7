import Mathlib.Data.List.TakeWhile
import Mathlib.Tactic.IntervalCases
import ValuePattern.Numeral
/-!
The grammar of the number literals, given without any reference to how they are read, and that
exactly the texts of this grammar are read as numbers. Signs, the word for infinity, base marks and
decimals are told apart one after another; none of these steps takes a text away from a later one,
because no number without a sign begins as one with a base mark does. The tests before the standard
reading of doubles keep out its words, each of which has an `n` in it, and no decimal.
-/
namespace ValuePattern

namespace Decimal

/-- At least one decimal digit. -/
def IsDigits (row : List Char) : Prop := row ≠ [] ∧ ∀ c ∈ row, c.isDigit = true

/-- Digits with at most one point among or around them. -/
inductive IsMantissa : List Char → Prop
  | whole {w} : IsDigits w → IsMantissa w
  | point {w f} : IsDigits w → (∀ c ∈ f, c.isDigit = true) → IsMantissa (w ++ '.' :: f)
  | fraction {f} : IsDigits f → IsMantissa ('.' :: f)

/-- Nothing, or a letter, at most one sign, and digits. -/
inductive IsExponent : List Char → Prop
  | none : IsExponent []
  | some {letter sign row} : letter ∈ ['e', 'E'] → sign ∈ [[], ['+'], ['-']] → IsDigits row →
      IsExponent (letter :: (sign ++ row))

variable {t m e row : List Char}

/-- Digits are taken up to the first character that is none. -/
theorem span_isDigit (hrow : ∀ c ∈ row, c.isDigit = true) (ht : ∀ c ∈ t.head?, c.isDigit = false) :
    (row ++ t).takeWhile Char.isDigit = row ∧ (row ++ t).dropWhile Char.isDigit = t := by
  rw [List.takeWhile_append_of_pos hrow, List.dropWhile_append_of_pos hrow]
  cases t with
  | nil => simp
  | cons c t => simp [ht c rfl]

theorem IsDigits.exists_cons (h : IsDigits row) :
    ∃ c r, row = c :: r ∧ c.isDigit = true := by
  obtain ⟨c, r, rfl⟩ := List.exists_cons_of_ne_nil h.1
  exact ⟨c, r, rfl, h.2 c List.mem_cons_self⟩

theorem readExponent?_isSome_iff : (readExponent? t).isSome = true ↔
    ∃ sign row, sign ∈ [[], ['+'], ['-']] ∧ IsDigits row ∧ t = sign ++ row := by
  constructor
  · intro h
    unfold readExponent? at h
    dsimp only at h
    split at h
    · rename_i row
      exact ⟨['-'], row, by simp, by simpa [Option.isSome_bind, IsDigits] using h, rfl⟩
    · rename_i row
      exact ⟨['+'], row, by simp, by simpa [IsDigits] using h, rfl⟩
    · exact ⟨[], t, by simp, by simpa [IsDigits] using h, rfl⟩
  · rintro ⟨sign, row, hsign, hrow, rfl⟩
    simp only [List.mem_cons, List.not_mem_nil, or_false] at hsign
    rcases hsign with rfl | rfl | rfl
    · obtain ⟨c, r, rfl, hc⟩ := hrow.exists_cons
      unfold readExponent?
      split
      · rename_i heq
        obtain ⟨rfl, -⟩ := List.cons.inj heq
        exact absurd hc (by decide)
      · rename_i heq
        obtain ⟨rfl, -⟩ := List.cons.inj heq
        exact absurd hc (by decide)
      · simpa [IsDigits] using hrow
    · simpa [readExponent?, IsDigits] using hrow
    · simpa [readExponent?, Option.isSome_bind, IsDigits] using hrow

theorem IsExponent.head (h : IsExponent e) : ∀ c ∈ e.head?, c = 'e' ∨ c = 'E' := by
  cases h with
  | none => simp
  | some hletter _ _ => simpa using hletter

theorem isExponent_iff {c : Char} : IsExponent (c :: t) ↔
    (c = 'e' ∨ c = 'E') ∧ (readExponent? t).isSome = true := by
  rw [readExponent?_isSome_iff]
  constructor
  · intro h
    cases h with
    | some hletter hsign hrow => exact ⟨by simpa using hletter, _, _, hsign, hrow, rfl⟩
  · rintro ⟨hletter, sign, row, hsign, hrow, rfl⟩
    exact .some (by simpa using hletter) hsign hrow

theorem IsExponent.char (h : IsExponent e) :
    ∀ c ∈ e, c.isDigit = true ∨ c ∈ ['e', 'E', '+', '-'] := by
  cases h with
  | none => simp
  | @some letter sign row hletter hsign hrow =>
    intro c hc
    rw [List.mem_cons, List.mem_append] at hc
    rcases hc with rfl | hc | hc
    · simp only [List.mem_cons, List.not_mem_nil, or_false] at hletter ⊢
      tauto
    · simp only [List.mem_cons, List.not_mem_nil, or_false] at hsign
      rcases hsign with rfl | rfl | rfl <;> simp_all
    · exact .inl (hrow.2 c hc)

theorem IsExponent.head_isDigit (h : IsExponent e) : ∀ c ∈ e.head?, c.isDigit = false := by
  intro c hc
  rcases h.head c hc with rfl | rfl <;> rfl

/-- What follows the digits and the point is read exactly if it is an exponent. -/
theorem afterFraction_isSome_iff (decimal : Int → Decimal) :
    (match t with
      | [] => some (decimal 0)
      | c :: row =>
        if c == 'e' || c == 'E' then (readExponent? row).map decimal
        else none).isSome = true ↔ IsExponent t := by
  cases t with
  | nil => exact iff_of_true rfl .none
  | cons c row =>
    rw [isExponent_iff]
    by_cases hc : c = 'e' ∨ c = 'E'
    · simp [hc]
    · simp [hc]

theorem read?_isSome_of_point (ht : t.dropWhile Char.isDigit = '.' :: row) :
    (read? t).isSome = true ↔
      (t.takeWhile Char.isDigit ≠ [] ∨ row.takeWhile Char.isDigit ≠ []) ∧
        IsExponent (row.dropWhile Char.isDigit) := by
  rw [← Classical.not_and_iff_not_or_not]
  unfold read?
  simp only [ht, Bool.and_eq_true, List.isEmpty_iff]
  split
  · simp [*]
  · rename_i hne
    rw [and_iff_right hne]
    exact afterFraction_isSome_iff fun exponent =>
      ⟨natOfDigits (t.takeWhile Char.isDigit ++ row.takeWhile Char.isDigit),
        exponent - (row.takeWhile Char.isDigit).length⟩

theorem read?_isSome_of_ne_point (ht : ∀ row, t.dropWhile Char.isDigit ≠ '.' :: row) :
    (read? t).isSome = true ↔
      t.takeWhile Char.isDigit ≠ [] ∧ IsExponent (t.dropWhile Char.isDigit) := by
  unfold read?
  simp only [Bool.and_eq_true, List.isEmpty_iff, and_true]
  split
  · simp [*]
  · rename_i hne
    rw [and_iff_right hne]
    exact afterFraction_isSome_iff fun exponent =>
      ⟨natOfDigits (t.takeWhile Char.isDigit ++ []), exponent - (0 : Nat)⟩

/-- The texts that are read as decimals: a mantissa and perhaps an exponent. -/
theorem read?_isSome_iff : (read? t).isSome = true ↔
    ∃ m e, IsMantissa m ∧ IsExponent e ∧ t = m ++ e := by
  have hdigits (row : List Char) : ∀ c ∈ row.takeWhile Char.isDigit, c.isDigit = true :=
    fun c hc => List.mem_takeWhile_imp hc
  constructor
  · intro h
    by_cases hpoint : ∃ row, t.dropWhile Char.isDigit = '.' :: row
    · obtain ⟨row, hrow⟩ := hpoint
      obtain ⟨hne, he⟩ := (read?_isSome_of_point hrow).mp h
      have ht : t = (t.takeWhile Char.isDigit ++ '.' :: row.takeWhile Char.isDigit) ++
          row.dropWhile Char.isDigit := by
        rw [List.append_assoc, List.cons_append, List.takeWhile_append_dropWhile, ← hrow,
          List.takeWhile_append_dropWhile]
      refine ⟨_, _, ?_, he, ht⟩
      by_cases hw : t.takeWhile Char.isDigit = []
      · rw [hw]
        exact .fraction ⟨hne.resolve_left (not_not_intro hw), hdigits row⟩
      · exact .point ⟨hw, hdigits t⟩ (hdigits row)
    · obtain ⟨hne, he⟩ := (read?_isSome_of_ne_point (not_exists.mp hpoint)).mp h
      exact ⟨_, _, .whole ⟨hne, hdigits t⟩, he, List.takeWhile_append_dropWhile.symm⟩
  · rintro ⟨m, e, hm, he, rfl⟩
    cases hm with
    | whole hw =>
      obtain ⟨htake, hdrop⟩ := span_isDigit hw.2 he.head_isDigit
      have hpoint : ∀ row, e ≠ '.' :: row := by
        rintro row rfl
        rcases he.head '.' rfl with h | h <;> exact absurd h (by decide)
      rw [read?_isSome_of_ne_point (by rwa [hdrop]), htake, hdrop]
      exact ⟨hw.1, he⟩
    | @point w f hw hf =>
      obtain ⟨htake, hdrop⟩ := span_isDigit (t := '.' :: (f ++ e)) hw.2 (by simp)
      obtain ⟨-, hdrop'⟩ := span_isDigit hf he.head_isDigit
      rw [List.append_assoc, List.cons_append, read?_isSome_of_point hdrop, htake, hdrop']
      exact ⟨.inl hw.1, he⟩
    | @fraction f hf =>
      obtain ⟨htake, hdrop⟩ := span_isDigit hf.2 he.head_isDigit
      have hpoint : ('.' :: (f ++ e)).dropWhile Char.isDigit = '.' :: (f ++ e) := by simp
      rw [List.cons_append, read?_isSome_of_point hpoint, htake, hdrop]
      exact ⟨.inr hf.1, he⟩

theorem IsMantissa.char (h : IsMantissa m) : ∀ c ∈ m, c.isDigit = true ∨ c = '.' := by
  cases h with
  | whole hw => exact fun c hc => .inl (hw.2 c hc)
  | point hw hf =>
    intro c hc
    rcases List.mem_append.mp hc with hc | hc
    · exact .inl (hw.2 c hc)
    · exact (List.mem_cons.mp hc).symm.imp_left (hf c)
  | fraction hf => exact fun c hc => (List.mem_cons.mp hc).symm.imp_left (hf.2 c)

theorem IsMantissa.exists_cons (h : IsMantissa m) :
    ∃ c r, m = c :: r ∧ (c.isDigit = true ∨ c = '.') := by
  cases h with
  | whole hw =>
    obtain ⟨c, r, rfl, hc⟩ := hw.exists_cons
    exact ⟨c, _, rfl, .inl hc⟩
  | point hw _ =>
    obtain ⟨c, r, rfl, hc⟩ := hw.exists_cons
    exact ⟨c, _, rfl, .inl hc⟩
  | fraction _ => exact ⟨'.', _, rfl, .inr rfl⟩

end Decimal

namespace Numeral

/-- The bases that have a mark. -/
inductive Base where
  | hexadecimal | octal | binary
  deriving DecidableEq, Repr

namespace Base

/-- How many bits a digit stands for. -/
def bits : Base → Nat
  | hexadecimal => 4
  | octal => 3
  | binary => 1

/-- How many digits there are. -/
def size (b : Base) : Nat := 2 ^ b.bits

/-- The letters that mark the base. -/
def marks : Base → List Char
  | hexadecimal => ['x', 'X']
  | octal => ['o', 'O']
  | binary => ['b', 'B']

/-- The digits of the base, in either case. -/
def digits : Base → List Char
  | hexadecimal =>
    ['0', '1', '2', '3', '4', '5', '6', '7', '8', '9', 'a', 'b', 'c', 'd', 'e', 'f', 'A', 'B', 'C',
      'D', 'E', 'F']
  | octal => ['0', '1', '2', '3', '4', '5', '6', '7']
  | binary => ['0', '1']

end Base

/-- A decimal or the word for infinity, without a sign. -/
inductive IsUnsigned : List Char → Prop
  | infinity : IsUnsigned "Infinity".toList
  | decimal {m e} : Decimal.IsMantissa m → Decimal.IsExponent e → IsUnsigned (m ++ e)

/-- A number with at most one sign, or digits behind the mark of their base. -/
inductive IsNumeral : List Char → Prop
  | unsigned {t} : IsUnsigned t → IsNumeral t
  | positive {t} : IsUnsigned t → IsNumeral ('+' :: t)
  | negative {t} : IsUnsigned t → IsNumeral ('-' :: t)
  | based {b : Base} {mark row} : mark ∈ b.marks → row ≠ [] → (∀ c ∈ row, c ∈ b.digits) →
      IsNumeral ('0' :: mark :: row)

section Digits

variable {b : Base} {base : Nat} {c : Char} {d : Nat} {row : List Char}

theorem toNat_of_hexDigit? (h : Text.hexDigit? c = some d) :
    (48 ≤ c.toNat ∧ c.toNat ≤ 57) ∨ (65 ≤ c.toNat ∧ c.toNat ≤ 70) ∨
      (97 ≤ c.toNat ∧ c.toNat ≤ 102) := by
  unfold Text.hexDigit? at h
  split at h
  · rename_i hc
    exact .inl (Char.isDigit_iff_toNat.mp hc)
  split at h
  · rename_i hc
    exact .inr (.inr (by simpa [Char.le_def, UInt32.le_iff_toNat_le] using hc))
  split at h
  · rename_i hc
    exact .inr (.inl (by simpa [Char.le_def, UInt32.le_iff_toNat_le] using hc))
  · simp at h

theorem mem_digits_hexadecimal (h : Text.hexDigit? c = some d) : c ∈ Base.hexadecimal.digits := by
  have hrange := toNat_of_hexDigit? h
  rw [← Char.ofNat_toNat c]
  generalize c.toNat = n at hrange ⊢
  rcases hrange with ⟨hlow, hhigh⟩ | ⟨hlow, hhigh⟩ | ⟨hlow, hhigh⟩
  · interval_cases n <;> decide
  · interval_cases n <;> decide
  · interval_cases n <;> decide

/-- The digits of a base are the characters whose value as a digit is below its size. -/
theorem mem_digits_iff : c ∈ b.digits ↔ ∃ d < b.size, Text.hexDigit? c = some d := by
  have hincluded : b.digits.all (· ∈ Base.hexadecimal.digits) = true := by
    cases b <;> decide
  have hsub {c : Char} (hc : c ∈ b.digits) : c ∈ Base.hexadecimal.digits :=
    of_decide_eq_true (List.all_eq_true.mp hincluded c hc)
  have hall : Base.hexadecimal.digits.all
      (fun e => (Text.hexDigit? e).any (· < b.size) == decide (e ∈ b.digits)) = true := by
    cases b <;> decide
  have hvalue (hc : c ∈ Base.hexadecimal.digits) :
      (Text.hexDigit? c).any (· < b.size) = decide (c ∈ b.digits) :=
    eq_of_beq (List.all_eq_true.mp hall c hc)
  constructor
  · intro h
    obtain ⟨d, hd, hlt⟩ :=
      (Option.any_eq_true _ _).mp ((hvalue (hsub h)).trans (decide_eq_true h))
    exact ⟨d, of_decide_eq_true hlt, hd⟩
  · rintro ⟨d, hd, h⟩
    have hany := hvalue (mem_digits_hexadecimal h)
    rw [h] at hany
    exact of_decide_eq_true (hany.symm.trans (decide_eq_true hd))

/-- A row is taken up digit by digit to its end exactly if all its characters are digits. -/
theorem foldDigits?_isSome (size : Magnitude) :
    (foldDigits? base size row).isSome = true ↔
      ∀ c ∈ row, ∃ d < base, Text.hexDigit? c = some d := by
  induction row generalizing size with
  | nil => simp [foldDigits?]
  | cons c row ih =>
    rw [foldDigits?, List.forall_mem_cons]
    cases hc : Text.hexDigit? c with
    | none => simp
    | some d =>
      by_cases hd : d < base
      · simp [hd, ih]
      · simp [hd]

theorem based?_cons {mark : Char} (hmark : mark ∈ b.marks) (hrow : row ≠ []) :
    based? ('0' :: mark :: row) = (foldDigits? b.size .zero row).map (.number false) := by
  cases row with
  | nil => exact absurd rfl hrow
  | cons c row =>
    cases b <;> simp only [Base.marks, List.mem_cons, List.not_mem_nil, or_false] at hmark <;>
      rcases hmark with rfl | rfl <;> rfl

/-- A text is read with a base only if it has the mark of one before at least one digit. -/
theorem exists_of_based? {t : List Char} {x : Double} (h : based? t = some x) :
    ∃ (b : Base) (mark : Char) (row : List Char), t = '0' :: mark :: row ∧ mark ∈ b.marks ∧
      row ≠ [] := by
  unfold based? at h
  split at h
  · rename_i mark c row
    obtain ⟨base, hbase, -⟩ := Option.bind_eq_some_iff.mp h
    split at hbase
    · rename_i hx
      exact ⟨.hexadecimal, mark, c :: row, rfl, by simpa [Base.marks] using hx, by simp⟩
    split at hbase
    · rename_i ho
      exact ⟨.octal, mark, c :: row, rfl, by simpa [Base.marks] using ho, by simp⟩
    split at hbase
    · rename_i hb
      exact ⟨.binary, mark, c :: row, rfl, by simpa [Base.marks] using hb, by simp⟩
    · simp at hbase
  · simp at h

theorem based?_isSome_of_mark {mark : Char} (hmark : mark ∈ b.marks) (hrow : row ≠ []) :
    (based? ('0' :: mark :: row)).isSome = true ↔ ∀ c ∈ row, c ∈ b.digits := by
  simp only [based?_cons hmark hrow, Option.isSome_map, foldDigits?_isSome, mem_digits_iff]

theorem based?_isSome_iff {t : List Char} :
    (based? t).isSome = true ↔ ∃ (b : Base) (mark : Char) (row : List Char),
      t = '0' :: mark :: row ∧ mark ∈ b.marks ∧ row ≠ [] ∧ ∀ c ∈ row, c ∈ b.digits := by
  constructor
  · intro h
    obtain ⟨x, hx⟩ := Option.isSome_iff_exists.mp h
    obtain ⟨b, mark, row, rfl, hmark, hrow⟩ := exists_of_based? hx
    exact ⟨b, mark, row, rfl, hmark, hrow, (based?_isSome_of_mark hmark hrow).mp h⟩
  · rintro ⟨b, mark, row, rfl, hmark, hrow, hdigits⟩
    exact (based?_isSome_of_mark hmark hrow).mpr hdigits

end Digits

section Unsigned

variable {t m e row : List Char}

/-- The number that a text without a sign and without a base mark denotes. -/
def unsigned? (text : List Char) : Option Double :=
  if text = "Infinity".toList then some .infinity
  else (Decimal.read? text).map fun d => .number false d.toMagnitude

theorem unsigned?_isSome_iff : (unsigned? t).isSome = true ↔ IsUnsigned t := by
  rw [unsigned?]
  split
  · rename_i h
    rw [h]
    exact iff_of_true rfl .infinity
  · rename_i h
    rw [Option.isSome_map, Decimal.read?_isSome_iff]
    constructor
    · rintro ⟨m, e, hm, he, rfl⟩
      exact .decimal hm he
    · intro ht
      cases ht with
      | infinity => exact absurd rfl h
      | decimal hm he => exact ⟨_, _, hm, he, rfl⟩

theorem IsUnsigned.exists_cons (h : IsUnsigned t) :
    ∃ c r, t = c :: r ∧ (c.isDigit = true ∨ c = '.' ∨ c = 'I') := by
  cases h with
  | infinity => exact ⟨'I', _, rfl, .inr (.inr rfl)⟩
  | decimal hm _ =>
    obtain ⟨c, r, rfl, hc⟩ := hm.exists_cons
    exact ⟨c, _, rfl, hc.imp_right .inl⟩

/-- The second character of a decimal that begins with a digit. -/
theorem second_of_decimal {c : Char} (hm : Decimal.IsMantissa m) (he : Decimal.IsExponent e)
    (h : m ++ e = '0' :: c :: row) : c.isDigit = true ∨ c = '.' ∨ c = 'e' ∨ c = 'E' := by
  obtain ⟨x, m, rfl, -⟩ := hm.exists_cons
  rw [List.cons_append, List.cons.injEq] at h
  cases m with
  | nil =>
    have hhead : c ∈ e.head? := by rw [← List.nil_append e, h.2]; rfl
    exact .inr (.inr (he.head c hhead))
  | cons y m =>
    rw [List.cons_append, List.cons.injEq] at h
    have hc := hm.char c (h.2.1 ▸ by simp)
    exact hc.imp_right .inl

/-- No number without a sign begins as one with a base mark does. -/
theorem IsUnsigned.based?_eq_none (h : IsUnsigned t) : based? t = none := by
  by_contra hsome
  obtain ⟨b, mark, row, ht, hmark, -, -⟩ :=
    based?_isSome_iff.mp (Option.isSome_iff_ne_none.mpr hsome)
  cases h with
  | infinity => exact absurd (List.cons.inj ht).1 (by decide)
  | decimal hm he =>
    have hsecond := second_of_decimal hm he ht
    cases b <;> simp only [Base.marks, List.mem_cons, List.not_mem_nil, or_false] at hmark <;>
      rcases hmark with rfl | rfl <;> revert hsecond <;> decide

theorem IsUnsigned.startsSigned_eq_false (h : IsUnsigned t) : startsSigned t = false := by
  obtain ⟨c, r, rfl, hc⟩ := h.exists_cons
  have hsign {s : Char} (hs : s = '+' ∨ s = '-') : (c == s) = false := by
    rw [beq_eq_false_iff_ne]
    rintro rfl
    rcases hs with rfl | rfl <;> exact absurd hc (by decide)
  rw [startsSigned, hsign (.inl rfl), hsign (.inr rfl), Bool.or_false]

theorem unsigned?_of_startsSigned (h : startsSigned t = true) : unsigned? t = none := by
  by_contra hsome
  have hunsigned := unsigned?_isSome_iff.mp (Option.isSome_iff_ne_none.mpr hsome)
  rw [hunsigned.startsSigned_eq_false] at h
  exact Bool.false_ne_true h

/-- All characters of a decimal may stand in one. -/
theorem all_isDecimalChar (h : (Decimal.read? t).isSome = true) : t.all isDecimalChar = true := by
  obtain ⟨m, e, hm, he, rfl⟩ := Decimal.read?_isSome_iff.mp h
  rw [List.all_eq_true]
  intro c hc
  rcases List.mem_append.mp hc with hc | hc
  · rcases hm.char c hc with hdigit | rfl
    · simp [isDecimalChar, hdigit]
    · rfl
  · rcases he.char c hc with hdigit | hmark
    · simp [isDecimalChar, hdigit]
    · simp only [List.mem_cons, List.not_mem_nil, or_false] at hmark
      rcases hmark with rfl | rfl | rfl | rfl <;> rfl

theorem toLower_of_isDigit {c : Char} (h : c.isDigit = true) : c.toLower = c := by
  have hrange : 48 ≤ c.toNat ∧ c.toNat ≤ 57 := Char.isDigit_iff_toNat.mp h
  have hupper : ¬ (c.val ≥ 'A'.val ∧ c.val ≤ 'Z'.val) := by
    rintro ⟨hA, -⟩
    have hlower : 65 ≤ c.toNat := UInt32.le_iff_toNat_le.mp hA
    omega
  exact dif_neg hupper

theorem toLower_ne_n {c : Char} (h : isDecimalChar c = true) : c.toLower ≠ 'n' := by
  simp only [isDecimalChar, Bool.or_eq_true, beq_iff_eq] at h
  rcases h with ((((hdigit | rfl) | rfl) | rfl) | rfl) | rfl
  · rw [toLower_of_isDigit hdigit]
    rintro rfl
    exact absurd hdigit (by decide)
  all_goals decide

/-- Where no other characters stand, and no sign in front, the standard reading of doubles reads
decimals and nothing else. -/
theorem double_read?_eq (hsign : startsSigned t = false) (h : t.all isDecimalChar = true) :
    Double.read? t = (Decimal.read? t).map fun d => .number false d.toMagnitude := by
  have hword {word : List Char} (hn : 'n' ∈ word) : t.map Char.toLower ≠ word := by
    rintro rfl
    obtain ⟨c, hc, hlower⟩ := List.mem_map.mp hn
    exact toLower_ne_n (List.all_eq_true.mp h c hc) hlower
  have hread : Double.read? t = Double.read?.unsigned? t := by
    unfold Double.read?
    split
    · simp [startsSigned] at hsign
    · simp [startsSigned] at hsign
    · rfl
  rw [hread, Double.read?.unsigned?]
  cases Decimal.read? t with
  | some d => rfl
  | none =>
    have hinf : t.map Char.toLower ≠ "inf".toList := hword (by simp)
    have hinfinity : t.map Char.toLower ≠ "infinity".toList := hword (by simp)
    have hnan : t.map Char.toLower ≠ "nan".toList := hword (by simp)
    simp only [decide_eq_false hinf, decide_eq_false hinfinity, Bool.or_false, Bool.false_eq_true,
      if_false, if_neg hnan, Option.map_none]

/-- The tests and the standard reading behind a sign come to a decimal or the word for infinity. -/
theorem tested_eq (body : List Char) (signed : Double → Double) :
    (if startsSigned body then none
      else if body = "Infinity".toList then some (signed .infinity)
      else if body.all isDecimalChar then (Double.read? body).map signed else none) =
      (unsigned? body).map signed := by
  split
  · rename_i hsign
    rw [unsigned?_of_startsSigned hsign]
    rfl
  rw [unsigned?]
  split
  · rfl
  split
  · rename_i hsign _ hall
    rw [double_read?_eq (Bool.eq_false_of_not_eq_true hsign) hall]
  · rename_i hall
    have hnone : Decimal.read? body = none := by
      by_contra hsome
      exact hall (all_isDecimalChar (Option.isSome_iff_ne_none.mpr hsome))
    rw [hnone]
    rfl

/-- A sign is followed by a number without one; where there is none, a base mark may come first. -/
theorem read?_eq (t : List Char) :
    read? t =
      match t with
      | '-' :: row => (unsigned? row).map .negate
      | '+' :: row => unsigned? row
      | row => (based? row).or (unsigned? row) := by
  have hlength (c : Char) (row : List Char) : row.length ≠ (c :: row).length := by simp
  split
  · rename_i row
    simp only [read?, if_neg (hlength '-' row), if_true]
    exact tested_eq row Double.negate
  · rename_i row
    simp only [read?, if_neg (hlength '+' row), Bool.false_eq_true, if_false]
    exact (tested_eq row id).trans Option.map_id_apply
  · rename_i hminus hplus
    rw [read?]
    · simp only [if_true, Bool.false_eq_true, if_false]
      cases hbased : based? t with
      | none => exact (tested_eq t id).trans Option.map_id_apply
      | some x =>
        obtain ⟨b, mark, row, rfl, -, -⟩ := exists_of_based? hbased
        have hsign : startsSigned ('0' :: mark :: row) = false := rfl
        have hword : '0' :: mark :: row ≠ "Infinity".toList := by simp
        rw [hsign, if_neg Bool.false_ne_true, if_neg hword, Option.some_or]
    · exact hminus
    · exact hplus

@[simp] theorem read?_negative (t : List Char) :
    read? ('-' :: t) = (unsigned? t).map .negate := read?_eq _

@[simp] theorem read?_positive (t : List Char) : read? ('+' :: t) = unsigned? t := read?_eq _

theorem read?_of_isUnsigned (h : IsUnsigned t) : read? t = unsigned? t := by
  obtain ⟨c, r, rfl, hc⟩ := h.exists_cons
  have hnone := h.based?_eq_none
  rw [read?_eq]
  split
  · rename_i heq
    rw [(List.cons.inj heq).1] at hc
    exact absurd hc (by decide)
  · rename_i heq
    rw [(List.cons.inj heq).1] at hc
    exact absurd hc (by decide)
  · rw [hnone, Option.none_or]

theorem isUnsigned_of_isMantissa (h : Decimal.IsMantissa t) : IsUnsigned t := by
  rw [← List.append_nil t]
  exact .decimal h .none

theorem unsigned?_of_isMantissa (h : Decimal.IsMantissa t) :
    unsigned? t = (Decimal.read? t).map fun d => .number false d.toMagnitude := by
  have hword : t ≠ "Infinity".toList := by
    rintro rfl
    exact absurd (h.char 'I' (by decide)) (by decide)
  rw [unsigned?, if_neg hword]

end Unsigned

theorem ne_nan_of_read? {t : List Char} {x : Double} (h : read? t = some x) : x ≠ .nan := by
  have hunsigned {u : List Char} {y : Double} (hu : unsigned? u = some y) : y ≠ .nan := by
    rw [unsigned?] at hu
    split at hu
    · rw [← Option.some.inj hu]
      simp [Double.infinity]
    · obtain ⟨d, -, rfl⟩ := Option.map_eq_some_iff.mp hu
      simp
  rw [read?_eq] at h
  split at h
  · obtain ⟨y, hy, rfl⟩ := Option.map_eq_some_iff.mp h
    cases y with
    | nan => exact absurd rfl (hunsigned hy)
    | number negative size => simp [Double.negate]
  · exact hunsigned h
  · rcases Option.or_eq_some_iff.mp h with h | ⟨-, h⟩
    · unfold based? at h
      split at h
      · obtain ⟨base, -, hbase⟩ := Option.bind_eq_some_iff.mp h
        obtain ⟨m, -, rfl⟩ := Option.map_eq_some_iff.mp hbase
        simp
      · simp at h
    · exact hunsigned h

theorem isSome_read?_iff {t : List Char} : (read? t).isSome = true ↔ IsNumeral t := by
  constructor
  · intro h
    rw [read?_eq] at h
    split at h
    · rw [Option.isSome_map] at h
      exact .negative (unsigned?_isSome_iff.mp h)
    · exact .positive (unsigned?_isSome_iff.mp h)
    · rw [Option.isSome_or, Bool.or_eq_true] at h
      rcases h with h | h
      · obtain ⟨b, mark, row, rfl, hmark, hrow, hdigits⟩ := based?_isSome_iff.mp h
        exact .based hmark hrow hdigits
      · exact .unsigned (unsigned?_isSome_iff.mp h)
  · intro h
    cases h with
    | unsigned hu => rw [read?_of_isUnsigned hu]; exact unsigned?_isSome_iff.mpr hu
    | positive hu => rw [read?_positive]; exact unsigned?_isSome_iff.mpr hu
    | negative hu =>
      rw [read?_negative, Option.isSome_map]
      exact unsigned?_isSome_iff.mpr hu
    | based hmark hrow hdigits =>
      have hbased := based?_isSome_iff.mpr ⟨_, _, _, rfl, hmark, hrow, hdigits⟩
      simp [read?_eq, hbased]

theorem isNumeral_of_read? {t : List Char} {x : Double} (h : read? t = some x) : IsNumeral t :=
  isSome_read?_iff.mp (by rw [h]; rfl)

/-- A text is read exactly if it is a numeral, and never as NaN. A sign before a number that has
none keeps or negates it. -/
theorem read?_grammar (t : List Char) :
    ((read? t).isSome = true ↔ IsNumeral t) ∧ read? t ≠ some .nan ∧
      (IsUnsigned t → ∃ x, read? t = some x ∧ read? ('+' :: t) = some x ∧
        read? ('-' :: t) = some x.negate) := by
  refine ⟨isSome_read?_iff, fun h => ne_nan_of_read? h rfl, fun hu => ?_⟩
  obtain ⟨x, hx⟩ := Option.isSome_iff_exists.mp (unsigned?_isSome_iff.mpr hu)
  refine ⟨x, (read?_of_isUnsigned hu).trans hx, (read?_positive t).trans hx, ?_⟩
  rw [read?_negative, hx, Option.map_some]

/-- Zero has two literals that denote different doubles. -/
theorem read?_grammar_zero :
    IsUnsigned ['0'] ∧ read? ['-', '0'] = some (.number true .zero) := by
  have hdigits : Decimal.IsDigits ['0'] := ⟨by simp, by simp⟩
  have hzero : IsUnsigned ['0'] := isUnsigned_of_isMantissa (.whole hdigits)
  obtain ⟨x, hx, -, hneg⟩ := (read?_grammar ['0']).2.2 hzero
  have hread : read? ['0'] = some (.number false .zero) := rfl
  rw [hneg, Option.some.inj (hx.symm.trans hread)]
  exact ⟨hzero, rfl⟩

end Numeral

end ValuePattern
