import Mathlib.Data.List.TakeWhile
import ValuePattern.Decimal.Positional
import ValuePattern.Proofs.Decimal.Shortest
import ValuePattern.Proofs.Numeral.Grammar
/-!
Numbers that are written out by place read back. The zeros that are put before and behind the digits,
and those that are left off behind the last place, change how a decimal is given and not its value,
which is all that rounding depends on.
-/
namespace ValuePattern

namespace Decimal

variable {d : Decimal} {row whole fraction : List Char}

theorem natOfDigits_append (row row' : List Char) :
    natOfDigits (row ++ row') = 10 ^ row'.length * natOfDigits row + natOfDigits row' := by
  rw [natOfDigits, List.foldl_append]
  exact Nat.ofDigitChars_eq_ofDigitChars_zero

theorem natOfDigits_replicate (k : Nat) : natOfDigits (List.replicate k '0') = 0 :=
  Nat.ofDigitChars_replicate_zero

theorem natOfDigits_append_zeros (row : List Char) (k : Nat) :
    natOfDigits (row ++ List.replicate k '0') = natOfDigits row * 10 ^ k := by
  rw [natOfDigits_append, natOfDigits_replicate, List.length_replicate, Nat.mul_comm, Nat.add_zero]

theorem natOfDigits_zeros_append (row : List Char) (k : Nat) :
    natOfDigits (List.replicate k '0' ++ row) = natOfDigits row := by
  rw [natOfDigits_append, natOfDigits_replicate, Nat.mul_zero, Nat.zero_add]

theorem natOfDigits_digitsOf (n : Nat) : natOfDigits (digitsOf n) = n :=
  Nat.ofDigitChars_ten_toDigits

/-- The zeros that are left off behind the last place. -/
theorem exists_append_zeros (row : List Char) :
    ∃ left, (row.reverse.dropWhile (· == '0')).reverse ++ List.replicate left '0' = row := by
  have hzeros : row.reverse.takeWhile (· == '0') =
      List.replicate (row.reverse.takeWhile (· == '0')).length '0' := by
    rw [List.eq_replicate_iff]
    exact ⟨rfl, fun c hc => by simpa using List.mem_takeWhile_imp hc⟩
  refine ⟨(row.reverse.takeWhile (· == '0')).length, ?_⟩
  rw [← List.reverse_replicate, ← hzeros, ← List.reverse_append, List.takeWhile_append_dropWhile,
    List.reverse_reverse]

/-- A decimal laid out by place: digits before the point, at least one, and digits behind it, which
have the value of the decimal once `left` zeros are put back. -/
structure Layout (d : Decimal) (whole fraction : List Char) (left : Nat) : Prop where
  whole_ne_nil : whole ≠ []
  isDigit : ∀ c ∈ whole ++ fraction, c.isDigit = true
  value : natOfDigits (whole ++ fraction) * 10 ^ left = d.digits * 10 ^ d.exponent.toNat
  places : fraction.length + left = (-d.exponent).toNat

/-- A row of digits that is cut before its last `-d.exponent` places. -/
theorem exists_layout_of_row (hdigit : ∀ c ∈ row, c.isDigit = true)
    (hlength : (-d.exponent).toNat < row.length)
    (hvalue : natOfDigits row = d.digits * 10 ^ d.exponent.toNat) :
    ∃ left, Layout d (row.take (row.length - (-d.exponent).toNat))
      ((row.drop (row.length - (-d.exponent).toNat)).reverse.dropWhile (· == '0')).reverse left := by
  obtain ⟨left, hleft⟩ := exists_append_zeros (row.drop (row.length - (-d.exponent).toNat))
  have hrow := List.take_append_drop (row.length - (-d.exponent).toNat) row
  rw [← hleft, ← List.append_assoc] at hrow
  refine ⟨left, ?_, ?_, ?_, ?_⟩
  · intro hnil
    have h := congrArg List.length hnil
    rw [List.length_take, List.length_nil] at h
    omega
  · intro c hc
    apply hdigit
    rw [← hrow]
    exact List.mem_append_left _ hc
  · rw [← natOfDigits_append_zeros, hrow, hvalue]
  · have h := congrArg List.length hleft
    rw [List.length_append, List.length_replicate, List.length_drop] at h
    omega

/-- Every decimal is written out as one of its layouts, with a point if digits stand behind it. -/
theorem exists_layout (d : Decimal) : ∃ whole fraction left, Layout d whole fraction left ∧
    d.positional = if fraction.isEmpty then whole else whole ++ '.' :: fraction := by
  obtain ⟨row, hrow⟩ : ∃ row, row = digitsOf d.digits ++ List.replicate d.exponent.toNat '0' :=
    ⟨_, rfl⟩
  obtain ⟨zeros, hzeros⟩ : ∃ zeros, zeros = (-d.exponent).toNat + 1 - row.length := ⟨_, rfl⟩
  have hdigit : ∀ c ∈ List.replicate zeros '0' ++ row, c.isDigit = true := by
    intro c hc
    rw [hrow, List.mem_append, List.mem_append] at hc
    rcases hc with hc | hc | hc
    · rw [List.eq_of_mem_replicate hc]
      decide
    · exact Nat.isDigit_of_mem_toDigits (by decide) (by decide) hc
    · rw [List.eq_of_mem_replicate hc]
      decide
  have hlength : (-d.exponent).toNat < (List.replicate zeros '0' ++ row).length := by
    rw [List.length_append, List.length_replicate]
    omega
  have hvalue : natOfDigits (List.replicate zeros '0' ++ row) =
      d.digits * 10 ^ d.exponent.toNat := by
    rw [natOfDigits_zeros_append, hrow, natOfDigits_append_zeros, natOfDigits_digitsOf]
  obtain ⟨left, h⟩ := exists_layout_of_row hdigit hlength hvalue
  refine ⟨_, _, left, h, ?_⟩
  rw [hzeros, hrow]
  rfl

theorem Layout.isDigits_whole {left : Nat} (h : Layout d whole fraction left) : IsDigits whole :=
  ⟨h.whole_ne_nil, fun c hc => h.isDigit c (List.mem_append_left _ hc)⟩

theorem Layout.isDigit_fraction {left : Nat} (h : Layout d whole fraction left) :
    ∀ c ∈ fraction, c.isDigit = true := fun c hc => h.isDigit c (List.mem_append_right _ hc)

/-- What a layout says when it is read. -/
theorem Layout.read? {left : Nat} (h : Layout d whole fraction left) :
    Decimal.read? (if fraction.isEmpty then whole else whole ++ '.' :: fraction) =
      some ⟨natOfDigits (whole ++ fraction), -fraction.length⟩ := by
  have hwhole := h.isDigits_whole.2
  cases fraction with
  | nil =>
    obtain ⟨htake, hdrop⟩ := span_isDigit (t := []) hwhole (by simp)
    rw [List.append_nil] at htake hdrop
    simp [Decimal.read?, htake, hdrop, h.whole_ne_nil]
  | cons c fraction =>
    obtain ⟨htake, hdrop⟩ := span_isDigit (t := '.' :: c :: fraction) hwhole (by simp)
    obtain ⟨htake', hdrop'⟩ := span_isDigit (t := []) h.isDigit_fraction (by simp)
    rw [List.append_nil] at htake' hdrop'
    simp [Decimal.read?, htake, hdrop, htake', hdrop']

/-- Reading a layout gives a decimal of the same value. -/
theorem Layout.toMagnitude {left : Nat} (h : Layout d whole fraction left) :
    Decimal.toMagnitude ⟨natOfDigits (whole ++ fraction), -fraction.length⟩ = d.toMagnitude := by
  have hplaces := h.places
  have hexponent : -(fraction.length : Int) = -((-d.exponent).toNat : Int) + left := by omega
  have hsigned : d.exponent = -((-d.exponent).toNat : Int) + d.exponent.toNat := by omega
  calc Decimal.toMagnitude ⟨natOfDigits (whole ++ fraction), -fraction.length⟩
      = Decimal.toMagnitude ⟨natOfDigits (whole ++ fraction), -((-d.exponent).toNat : Int) + left⟩ := by
        rw [hexponent]
    _ = Decimal.toMagnitude ⟨d.digits * 10 ^ d.exponent.toNat, -((-d.exponent).toNat : Int)⟩ := by
        rw [← toMagnitude_mul_pow, h.value]
    _ = Decimal.toMagnitude ⟨d.digits, d.exponent⟩ := by
        rw [toMagnitude_mul_pow, ← hsigned]

/-- A decimal that is written out by place reads back with its value. -/
theorem read?_positional (d : Decimal) :
    ∃ e, Decimal.read? d.positional = some e ∧ e.toMagnitude = d.toMagnitude := by
  obtain ⟨whole, fraction, left, h, htext⟩ := exists_layout d
  rw [htext]
  exact ⟨_, h.read?, h.toMagnitude⟩

theorem isMantissa_positional (d : Decimal) : IsMantissa d.positional := by
  obtain ⟨whole, fraction, left, h, htext⟩ := exists_layout d
  rw [htext]
  split
  · exact .whole h.isDigits_whole
  · exact .point h.isDigits_whole h.isDigit_fraction

end Decimal

namespace Numeral

theorem unsigned?_positional (d : Decimal) :
    unsigned? d.positional = some (.number false d.toMagnitude) := by
  obtain ⟨e, hread, hvalue⟩ := d.read?_positional
  rw [unsigned?_of_isMantissa d.isMantissa_positional, hread, Option.map_some, hvalue]

theorem read?_positional (d : Decimal) :
    read? d.positional = some (.number false d.toMagnitude) := by
  have hunsigned := isUnsigned_of_isMantissa d.isMantissa_positional
  rw [read?_of_isUnsigned hunsigned, unsigned?_positional]

/-- The text of a number is a literal that denotes it: the sign of a zero and the infinities are
kept. -/
theorem read?_text {x : Double} (hx : x ≠ .nan) :
    read? (x.text "Infinity").toList = some x := by
  cases x with
  | nan => exact absurd rfl hx
  | number negative m =>
    cases hm : m.isInfinite with
    | true =>
      obtain rfl := Magnitude.isInfinite_iff.mp hm
      cases negative <;> decide +kernel
    | false =>
      have hsize := Magnitude.shortest_toMagnitude hm
      cases negative with
      | false => simp [Double.text, hm, read?_positional, hsize]
      | true => simp [Double.text, hm, unsigned?_positional, hsize, Double.negate]

end Numeral

end ValuePattern
