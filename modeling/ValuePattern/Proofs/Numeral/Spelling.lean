import Mathlib.Data.List.Forall2
import Mathlib.Data.Nat.Digits.Defs
import ValuePattern.Proofs.Decimal.Scale
import ValuePattern.Proofs.Grammar.Compile
import ValuePattern.Proofs.Numeral.Grammar
import ValuePattern.Proofs.Numeral.Leading
import ValuePattern.Table
/-!
The spellings of a whole number. Its decimal digits are read exactly and rounded once; digits behind a
base mark are taken up one by one, and what is rounded there is a number with zeros for the last
digits. So a number may have two spellings that are read as different doubles, and these are exactly
the numbers just above a tie.
-/
namespace ValuePattern

namespace Decimal

theorem two_pow_le_of_digitCount {n k : Nat} (hn : n ≠ 0) (h : 62 * k < digitCount n) :
    2 ^ (205 * k) ≤ n := by
  have hlog : 62 * k ≤ Nat.log 10 n := by
    rw [digitCount_eq_log] at h
    omega
  calc 2 ^ (205 * k) = (2 ^ 205) ^ k := Nat.pow_mul 2 205 k
    _ ≤ (10 ^ 62) ^ k := Nat.pow_le_pow_left (by decide) k
    _ = 10 ^ (62 * k) := (Nat.pow_mul 10 62 k).symm
    _ ≤ n := Nat.pow_le_of_le_log hn hlog

/-- A whole number is rounded once. -/
theorem toMagnitude_natCast (n : Nat) : toMagnitude ⟨n, 0⟩ = .ofNat n := by
  by_cases hzero : n = 0
  · rw [hzero, Magnitude.ofNat_zero]
    rfl
  by_cases hlarge : 310 < digitCount n
  · -- the exponents are kept as variables, so that no power is computed
    obtain ⟨k, hk⟩ : ∃ k, k = 5 := ⟨_, rfl⟩
    obtain ⟨e, he⟩ : ∃ e, e = 972 := ⟨_, rfl⟩
    have hpow : 2 ^ (52 + e) ≤ n :=
      Nat.le_trans (Nat.pow_le_pow_right (by decide) (by omega))
        (two_pow_le_of_digitCount (k := k) hzero (by omega))
    have hn : 2 ^ 52 ≤ n := Nat.le_trans (Nat.pow_le_pow_right (by decide) (by omega)) hpow
    have hrank := Magnitude.le_roundedRank hpow
    have htop := Magnitude.topRank_eq
    rw [Magnitude.ofNat_eq_ofRank hn, Magnitude.ofRank_of_le (by omega)]
    simp [toMagnitude, hzero, hlarge]
  · have hsmall : ¬(digitCount n : Int) < -330 := by omega
    simp [toMagnitude, hzero, hlarge, hsmall, Magnitude.ofNat]

end Decimal

namespace Numeral

open Magnitude (ofNat leading JustAboveTie ofNat_leading_eq_iff)

/-- A row of digits is one way to write a number in a base; there may be zeros in front. -/
def Denotes (base n : Nat) (row : List Char) : Prop :=
  row ≠ [] ∧ ∃ ds, HasDigits base row ds ∧ Nat.ofDigits base ds.reverse = n

/-- The literals for a number: its decimal digits, or digits behind the mark of one of the bases. -/
inductive IsSpelling (bases : List Base) (n : Nat) : List Char → Prop
  | decimal {row} : Denotes 10 n row → IsSpelling bases n row
  | based {b mark row} : b ∈ bases → mark ∈ b.marks → Denotes b.size n row →
      IsSpelling bases n ('0' :: mark :: row)

/-- All spellings of a number are patterns with the same number, and so match the same values. -/
def SpellingsAgree (bases : List Base) (n : Nat) : Prop :=
  ∀ s t : String, IsSpelling bases n s.toList → IsSpelling bases n t.toList →
    ∃ (p q : Pattern) (a b : Span) (x : Double), Pattern.compile s = .ok p ∧
      Pattern.compile t = .ok q ∧ p.root = some (.number a x) ∧ q.root = some (.number b x) ∧
      ∀ v, p.accepts v = q.accepts v

section Rows

variable {b : Base} {base n : Nat} {c : Char} {d : Nat} {row : List Char} {ds : List Nat}

theorem ofDigits_reverse (ds : List Nat) :
    Nat.ofDigits base ds.reverse = ds.foldl (fun m d => m * base + d) 0 := by
  rw [Nat.ofDigits_eq_foldr, List.foldr_reverse]
  simp only [Nat.cast_id, Nat.add_comm, Nat.mul_comm]

/-- Every number can be written in every base, here with a zero in front. -/
theorem exists_denotes (base n : Nat) (hbase : 1 < base) (hbase' : base ≤ 16) :
    ∃ row, Denotes base n row := by
  have hdigit : ∀ d < 16, Text.hexDigit? (Nat.digitChar d) = some d := by decide
  refine ⟨'0' :: (base.digits n).reverse.map Nat.digitChar, List.cons_ne_nil _ _,
    0 :: (base.digits n).reverse, ?_, ?_⟩
  · refine .cons ⟨rfl, by omega⟩ ?_
    rw [List.forall₂_map_left_iff, List.forall₂_same]
    intro d hd
    have hlt := Nat.digits_lt_base hbase (List.mem_reverse.mp hd)
    exact ⟨hdigit d (by omega), hlt⟩
  · simp [Nat.ofDigits_append, Nat.ofDigits_digits]

theorem HasDigits.exists_of_mem (h : HasDigits base row ds) :
    ∀ c ∈ row, ∃ d < base, Text.hexDigit? c = some d := by
  induction h with
  | nil => simp
  | cons hc _ ih => exact List.forall_mem_cons.mpr ⟨⟨_, hc.2, hc.1⟩, ih⟩

/-- Digits behind a base mark are read as the nearest double to the leading ones. -/
theorem read?_based (hmark : c ∈ b.marks) (h : Denotes b.size n row) :
    read? ('0' :: c :: row) = some (.number false (ofNat (leading b.bits n))) := by
  obtain ⟨hrow, ds, hds, rfl⟩ := h
  have hbits : 0 < b.bits ∧ b.bits ≤ 52 := by cases b <;> decide
  have hfold := foldDigits?_ofNat_leading (n := 0) hbits.1 hbits.2 hds
  rw [Magnitude.leading_of_lt (by decide), Magnitude.ofNat_zero, ← Base.size,
    ← ofDigits_reverse] at hfold
  have hread : read? ('0' :: c :: row) =
      (based? ('0' :: c :: row)).or (unsigned? ('0' :: c :: row)) := read?_eq _
  rw [hread, based?_cons hmark hrow, hfold, Option.map_some, Option.some_or]

theorem digitValue_of_hexDigit? (h : Text.hexDigit? c = some d) (hd : d < 10) :
    c.isDigit = true ∧ Text.digitValue c = d := by
  unfold Text.hexDigit? at h
  split at h
  · exact ⟨‹_›, Option.some.inj h⟩
  split at h
  · have := Option.some.inj h
    omega
  split at h
  · have := Option.some.inj h
    omega
  · simp at h

theorem HasDigits.isDigit (h : HasDigits 10 row ds) : ∀ c ∈ row, c.isDigit = true := by
  intro c hc
  obtain ⟨d, hd, hdigit⟩ := h.exists_of_mem c hc
  exact (digitValue_of_hexDigit? hdigit hd).1

theorem HasDigits.natOfDigits (h : HasDigits 10 row ds) :
    Decimal.natOfDigits row = Nat.ofDigits 10 ds.reverse := by
  rw [ofDigits_reverse, Decimal.natOfDigits]
  generalize 0 = m
  induction h generalizing m with
  | nil => rfl
  | cons hc _ ih =>
    rw [List.foldl_cons, List.foldl_cons, (digitValue_of_hexDigit? hc.1 hc.2).2, Nat.mul_comm, ih]

/-- Decimal digits are read as the nearest double. -/
theorem read?_of_denotes_ten (h : Denotes 10 n row) :
    read? row = some (.number false (ofNat n)) := by
  obtain ⟨hrow, ds, hds, rfl⟩ := h
  obtain ⟨htake, hdrop⟩ := Decimal.span_isDigit (t := []) hds.isDigit (by simp)
  rw [List.append_nil] at htake hdrop
  have hread : Decimal.read? row = some ⟨Nat.ofDigits 10 ds.reverse, 0⟩ := by
    simp [Decimal.read?, htake, hdrop, hrow, hds.natOfDigits]
  have hmantissa : Decimal.IsMantissa row := .whole ⟨hrow, hds.isDigit⟩
  rw [read?_of_isUnsigned (isUnsigned_of_isMantissa hmantissa), unsigned?_of_isMantissa hmantissa,
    hread, Option.map_some, Decimal.toMagnitude_natCast]

end Rows

/-- A literal is a pattern of its number. -/
theorem compile_of_read? {s : String} {x : Double} (h : read? s.toList = some x) :
    Pattern.compile s = .ok ⟨s, some (.number ⟨0, s.toList.length⟩ x)⟩ := by
  have hvalue : Grammar.IsValue s.toList 0 (.number ⟨0, 0 + s.toList.length⟩ x) :=
    .literal (.number h)
  have hpattern := Grammar.IsPattern.value (w := []) (u := []) Text.blanks_nil hvalue Text.blanks_nil
  rw [List.nil_append, List.append_nil, Nat.zero_add] at hpattern
  exact Pattern.compile_eq_ok_iff_readRoot.mpr ⟨rfl, Pattern.readRoot_of_isPattern hpattern⟩

section Agreement

variable {bases : List Base} {b : Base} {n : Nat}

/-- The doubles that the spellings of a number are read as. -/
theorem IsSpelling.read? {t : List Char} (h : IsSpelling bases n t) :
    ∃ m, Numeral.read? t = some (.number false (ofNat m)) ∧
      (m = n ∨ ∃ b ∈ bases, m = leading b.bits n) := by
  cases h with
  | decimal hrow => exact ⟨n, read?_of_denotes_ten hrow, .inl rfl⟩
  | based hb hmark hrow => exact ⟨_, read?_based hmark hrow, .inr ⟨_, hb, rfl⟩⟩

/-- Where spellings agree, rounding the leading digits is rounding the number. -/
theorem SpellingsAgree.ofNat_leading (h : SpellingsAgree bases n) (hb : b ∈ bases) :
    ofNat (leading b.bits n) = ofNat n := by
  have hsize : 1 < b.size ∧ b.size ≤ 16 := by cases b <;> decide
  obtain ⟨mark, hmark⟩ : ∃ mark, mark ∈ b.marks := by
    cases b <;> exact ⟨_, List.mem_cons_self⟩
  obtain ⟨row, hrow⟩ := exists_denotes 10 n (by decide) (by decide)
  obtain ⟨row', hrow'⟩ := exists_denotes b.size n hsize.1 hsize.2
  obtain ⟨p, q, a, c, x, hp, hq, hx, hx', -⟩ := h (.ofList ('0' :: mark :: row')) (.ofList row)
    (by simpa using .based hb hmark hrow') (by simpa using .decimal hrow)
  rw [compile_of_read? (by simpa using read?_based hmark hrow'), Except.ok.injEq] at hp
  rw [compile_of_read? (by simpa using read?_of_denotes_ten hrow), Except.ok.injEq] at hq
  subst hp hq
  simp only [Option.some.injEq, Node.number.injEq] at hx hx'
  exact (Double.number.inj (hx.2.trans hx'.2.symm)).2

/-- The spellings of a number agree exactly if it is not just above a tie. -/
theorem spellingsAgree_iff (bases : List Base) (n : Nat) :
    SpellingsAgree bases n ↔ ∀ b ∈ bases, ¬JustAboveTie b.bits n := by
  constructor
  · intro h b hb
    exact ofNat_leading_eq_iff.mp (h.ofNat_leading hb)
  · intro h s t hs ht
    have rounded {u : String} (hu : IsSpelling bases n u.toList) :
        Numeral.read? u.toList = some (.number false (ofNat n)) := by
      obtain ⟨m, hm, rfl | ⟨b, hb, rfl⟩⟩ := hu.read?
      · exact hm
      · rw [hm, ofNat_leading_eq_iff.mpr (h b hb)]
    refine ⟨_, _, _, _, _, compile_of_read? (rounded hs), compile_of_read? (rounded ht), rfl, rfl, ?_⟩
    intro v
    cases v <;> rfl

/-- The last digit of this number is lost in base sixteen, so it is read as an even tie. -/
theorem not_spellingsAgree_hexadecimal :
    ¬SpellingsAgree [.hexadecimal, .octal, .binary] 0x200000000000011 := by
  intro h
  exact ofNat_leading_eq_iff.mp (h.ofNat_leading (b := .hexadecimal) List.mem_cons_self) (by decide)

end Agreement

end Numeral

end ValuePattern
