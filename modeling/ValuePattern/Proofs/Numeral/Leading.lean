import ValuePattern.Numeral
import ValuePattern.Proofs.Double.Rounding
/-!
What a whole number becomes that is taken up digit by digit, where every digit has the same number of
bits. As long as there are at most 53 bits nothing is rounded. The first digit that brings a 54th bit
is still rounded together with those before it, and each one behind it is lost, so the result is the
nearest double to a number that has zeros in the places of these. That is also the nearest double to
the whole number, unless those digits are what puts it above the middle between two doubles.
-/
namespace ValuePattern

namespace Magnitude

/-- The bits of a number behind the digit, of `k` bits, with which it comes to have 54 bits. -/
def droppedBits (k n : Nat) : Nat := (n.log2 - 53) / k * k

/-- A number with zeros for the digits behind the one with which it comes to have 54 bits. -/
def leading (k n : Nat) : Nat := n / 2 ^ droppedBits k n * 2 ^ droppedBits k n

theorem leading_mul_pow_add_of_lt {k n d : Nat} (hk : 0 < k) (hn : n < 2 ^ 53) (hd : d < 2 ^ k) :
    leading k (n * 2 ^ k + d) = n * 2 ^ k + d := by
  have hlog : (n * 2 ^ k + d).log2 < 53 + k := by
    by_cases hzero : n * 2 ^ k + d = 0
    · rw [hzero]
      exact Nat.lt_of_lt_of_le (by decide) (Nat.le_add_right 53 k)
    · rw [Nat.log2_lt hzero, Nat.pow_add]
      calc n * 2 ^ k + d < (n + 1) * 2 ^ k := by rw [Nat.succ_mul]; omega
        _ ≤ 2 ^ 53 * 2 ^ k := Nat.mul_le_mul_right _ hn
  have hdropped : droppedBits k (n * 2 ^ k + d) = 0 := by
    rw [droppedBits, Nat.div_eq_of_lt (by omega), Nat.zero_mul]
  rw [leading, hdropped, Nat.pow_zero, Nat.div_one, Nat.mul_one]

theorem leading_mul_pow_add {k n d : Nat} (hk : 0 < k) (hn : 2 ^ 53 ≤ n) (hd : d < 2 ^ k) :
    leading k (n * 2 ^ k + d) = leading k n * 2 ^ k := by
  have hpos : 0 < 2 ^ k := Nat.two_pow_pos k
  have hne : n ≠ 0 := by omega
  have hlog53 : 53 ≤ n.log2 := (Nat.le_log2 hne).mpr hn
  have hdropped : droppedBits k (n * 2 ^ k + d) = droppedBits k n + k := by
    rw [droppedBits, droppedBits, log2_mul_pow_add hne hd, Nat.sub_add_comm hlog53, Nat.add_div_right _ hk, Nat.succ_mul]
  have hdiv : (n * 2 ^ k + d) / 2 ^ (k + droppedBits k n) = n / 2 ^ droppedBits k n := by
    rw [Nat.pow_add, ← Nat.div_div_eq_div_mul, Nat.mul_comm n, Nat.mul_add_div hpos,
      Nat.div_eq_of_lt hd, Nat.add_zero]
  rw [leading, leading, hdropped, Nat.add_comm (droppedBits k n), hdiv, Nat.add_comm k, Nat.pow_add,
    Nat.mul_assoc]

theorem le_leading {k n : Nat} (hn : 2 ^ 53 ≤ n) : 2 ^ 53 ≤ leading k n := by
  have hne : n ≠ 0 := by omega
  have hlog53 : 53 ≤ n.log2 := (Nat.le_log2 hne).mpr hn
  have hle : droppedBits k n ≤ n.log2 - 53 := Nat.div_mul_le_self _ _
  have hquot : 2 ^ 53 ≤ 2 ^ (n.log2 - droppedBits k n) :=
    Nat.pow_le_pow_right (by decide) (by omega)
  have hquot' : 2 ^ (n.log2 - droppedBits k n) ≤ n / 2 ^ droppedBits k n := by
    rw [Nat.le_div_iff_mul_le (Nat.two_pow_pos _), ← Nat.pow_add, Nat.sub_add_cancel (by omega)]
    exact Nat.log2_self_le hne
  exact Nat.le_trans (Nat.le_trans hquot hquot') (Nat.le_mul_of_pos_right _ (Nat.two_pow_pos _))

theorem log2_sub_of_lt {n : Nat} (hn : n < 2 ^ 53) : n.log2 - 53 = 0 := by
  by_cases hzero : n = 0
  · rw [hzero]
    rfl
  · have h := (Nat.log2_lt hzero).mpr hn
    omega

theorem droppedBits_of_lt {k n : Nat} (hn : n < 2 ^ 53) : droppedBits k n = 0 := by
  rw [droppedBits, log2_sub_of_lt hn, Nat.zero_div, Nat.zero_mul]

theorem leading_of_lt {k n : Nat} (hn : n < 2 ^ 53) : leading k n = n := by
  rw [leading, droppedBits_of_lt hn, Nat.pow_zero, Nat.div_one, Nat.mul_one]

/-- Taking up one more digit takes the number of the digits so far to that of the digits with it. -/
theorem mul_add_leading {k n d : Nat} (hk : 0 < k) (hk' : k ≤ 52) (hd : d < 2 ^ k) :
    ((ofNat (leading k n)).mul (ofNat (2 ^ k))).add (ofNat d) = ofNat (leading k (n * 2 ^ k + d)) := by
  have hpow : 2 ^ k < 2 ^ 53 := Nat.pow_lt_pow_right (by decide) (by omega)
  by_cases hn : n < 2 ^ 53
  · rw [leading_of_lt hn, leading_mul_pow_add_of_lt hk hn hd,
      (exact_of_lt hn).mul_ofNat (exact_of_lt hpow),
      (exact_mul_pow hn (by omega)).add_ofNat (exact_of_lt (Nat.lt_trans hd hpow))]
  · have hn' : 2 ^ 53 ≤ n := Nat.not_lt.mp hn
    rw [leading_mul_pow_add hk hn' hd, mul_pow_add (le_leading hn') hd hk']

/-- A number is a little above the middle between two doubles, the lower one of which is even: by less
than the last bit that the leading digits have. -/
def JustAboveTie (k n : Nat) : Prop :=
  n.log2 < 1024 ∧ 2 ^ (n.log2 - 53) < n % 2 ^ (n.log2 - 53 + 2) ∧
    n % 2 ^ (n.log2 - 53 + 2) < 2 ^ (n.log2 - 53) + 2 ^ droppedBits k n

instance (k n : Nat) : Decidable (JustAboveTie k n) := inferInstanceAs (Decidable (_ ∧ _ ∧ _))

theorem ofRank_eq_ofRank_iff {e t a b : Nat} (ht : t < 2 ^ 52) (ha : a ≤ 1) (hb : b ≤ 1) :
    ofRank (2 ^ 52 * (e + 1) + t + a + 2 ^ 52 * 1074) =
      ofRank (2 ^ 52 * (e + 1) + t + b + 2 ^ 52 * 1074) ↔ a = b ∨ 972 ≤ e := by
  have htop := topRank_eq
  rw [ofRank, ofRank, Magnitude.mk.injEq]
  omega

/-- What is cut off from what is left over a multiple of the step changes the rounding only just above
half a step, and there only if half a step is rounded down. -/
theorem rounds_alike_iff {c i t x : Nat} :
    ((if 2 ^ (c + i + 1) < 2 * (x / 2 ^ c * 2 ^ c) ∨ 2 * (x / 2 ^ c * 2 ^ c) = 2 ^ (c + i + 1) ∧
        t % 2 = 1 then 1 else 0) =
      if 2 ^ (c + i + 1) < 2 * x ∨ 2 * x = 2 ^ (c + i + 1) ∧ t % 2 = 1 then 1 else 0) ↔
      ¬(2 ^ (c + i) < t % 2 * 2 ^ (c + i + 1) + x ∧
        t % 2 * 2 ^ (c + i + 1) + x < 2 ^ (c + i) + 2 ^ c) := by
  have hcut : x / 2 ^ c * 2 ^ c ≤ x := Nat.div_mul_le_self _ _
  have hcut' : x < x / 2 ^ c * 2 ^ c + 2 ^ c := by
    rw [← Nat.succ_mul]
    exact Nat.lt_mul_of_div_lt (Nat.lt_succ_self _) (Nat.two_pow_pos c)
  have hhalf : 2 ^ (c + i) = 2 ^ i * 2 ^ c := by rw [Nat.add_comm, Nat.pow_add]
  have hstep : 2 ^ (c + i + 1) = 2 * 2 ^ (c + i) := Nat.pow_succ'
  have hle : 2 ^ c ≤ 2 ^ (c + i) := Nat.pow_le_pow_right (by decide) (Nat.le_add_right c i)
  -- both half a step and what is kept are multiples of what one unit of the last digit is worth
  have hmultiple : x / 2 ^ c * 2 ^ c + 2 ^ c ≤ 2 ^ (c + i) ∨ x / 2 ^ c * 2 ^ c = 2 ^ (c + i) ∨
      2 ^ (c + i) + 2 ^ c ≤ x / 2 ^ c * 2 ^ c := by
    rw [hhalf, ← Nat.succ_mul, ← Nat.succ_mul]
    rcases Nat.lt_trichotomy (x / 2 ^ c) (2 ^ i) with hlt | heq | hgt
    · exact .inl (Nat.mul_le_mul_right _ hlt)
    · exact .inr (.inl (by rw [heq]))
    · exact .inr (.inr (Nat.mul_le_mul_right _ hgt))
  rw [hstep]
  generalize x / 2 ^ c * 2 ^ c = kept at *
  generalize 2 ^ (c + i) = half at *
  generalize 2 ^ c = unit at *
  rcases Nat.mod_two_eq_zero_or_one t with ht | ht
  · rw [ht]
    split <;> split <;> omega
  · rw [ht]
    split <;> split <;> omega

/-- Cutting off the last bits of a number keeps the multiple of the step. -/
theorem cut_run (m c i x : Nat) :
    (m * 2 ^ (c + i) + x) / 2 ^ c * 2 ^ c = m * 2 ^ (c + i) + x / 2 ^ c * 2 ^ c := by
  have hsplit : m * 2 ^ (c + i) + x = 2 ^ c * (m * 2 ^ i) + x := by
    rw [Nat.pow_add]
    ring
  rw [hsplit, Nat.mul_add_div (Nat.two_pow_pos c), Nat.pow_add]
  ring

/-- The bits of a number below the last but one bit of its rank. -/
theorem mod_run {e t x : Nat} (hx : x < 2 ^ e) :
    ((2 ^ 52 + t) * 2 ^ e + x) % 2 ^ (e + 1) = t % 2 * 2 ^ e + x := by
  have hpos : 0 < 2 ^ e := Nat.two_pow_pos e
  have hquot : ((2 ^ 52 + t) * 2 ^ e + x) / 2 ^ e = 2 ^ 52 + t := by
    rw [Nat.mul_comm, Nat.mul_add_div hpos, Nat.div_eq_of_lt hx, Nat.add_zero]
  have hparity : (2 ^ 52 + t) % 2 = t % 2 := by omega
  rw [Nat.pow_add_one 2 e, Nat.mod_mul, hquot, hparity, Nat.mul_add_mod_self_right, Nat.mod_eq_of_lt hx,
    Nat.mul_comm, Nat.add_comm]

/-- The digits behind the leading ones make no difference to the nearest double unless the number is
just above a tie. -/
theorem ofNat_leading_eq_iff {k n : Nat} :
    ofNat (leading k n) = ofNat n ↔ ¬ JustAboveTie k n := by
  by_cases hn : n < 2 ^ 53
  · rw [leading_of_lt hn, JustAboveTie, log2_sub_of_lt hn, droppedBits_of_lt hn]
    refine iff_of_true rfl ?_
    rintro ⟨-, hlow, hhigh⟩
    omega
  · obtain ⟨e, t, x, ht, hx, hrun⟩ := exists_units_run (u := n) (by omega)
    have hlog : n.log2 = 52 + e := by rw [hrun, log2_run ht hx]
    have hlog53 : 53 ≤ n.log2 := (Nat.le_log2 (by omega)).mpr (Nat.not_lt.mp hn)
    obtain ⟨h, rfl⟩ : ∃ h, e = h + 1 := ⟨e - 1, by omega⟩
    have hbits : n.log2 - 53 = h := by omega
    have hc : droppedBits k n ≤ h := by
      rw [droppedBits, hbits]
      exact Nat.div_mul_le_self _ _
    rw [JustAboveTie, hbits, leading]
    -- from here on only that no more bits are dropped than lie below half a step matters
    generalize droppedBits k n = c at hc ⊢
    obtain ⟨i, rfl⟩ := Nat.exists_eq_add_of_le hc
    have hlead := cut_run (2 ^ 52 + t) c (i + 1) x
    rw [← Nat.add_assoc, ← hrun] at hlead
    have hx' : x / 2 ^ c * 2 ^ c < 2 ^ (c + i + 1) :=
      Nat.lt_of_le_of_lt (Nat.div_mul_le_self _ _) hx
    have hlarge : 2 ^ 52 ≤ (2 ^ 52 + t) * 2 ^ (c + i + 1) + x / 2 ^ c * 2 ^ c :=
      Nat.le_trans (Nat.le_mul_of_pos_right _ (Nat.two_pow_pos _))
        (Nat.le_trans (Nat.mul_le_mul_right _ (Nat.le_add_right _ t)) (Nat.le_add_right _ _))
    rw [hlead, ofNat_eq_ofRank hlarge, ofNat_eq_ofRank (by omega), roundedRank_run ht hx', hlog, hrun,
      roundedRank_run ht hx, mod_run hx, ofRank_eq_ofRank_iff ht (by split <;> omega) (by split <;> omega),
      rounds_alike_iff, Classical.not_and_iff_not_or_not (b := _ ∧ _), or_comm]
    exact or_congr_left (by omega)

end Magnitude

namespace Numeral

/-- A row of digits with their values in a base. -/
def HasDigits (base : Nat) : List Char → List Nat → Prop :=
  List.Forall₂ fun c d => Text.hexDigit? c = some d ∧ d < base

/-- A row of digits is taken up as the nearest double to the leading ones. -/
theorem foldDigits?_ofNat_leading {k n : Nat} {row : List Char} {ds : List Nat} (hk : 0 < k)
    (hk' : k ≤ 52) (h : HasDigits (2 ^ k) row ds) :
    foldDigits? (2 ^ k) (.ofNat (Magnitude.leading k n)) row =
      some (.ofNat (Magnitude.leading k (ds.foldl (fun m d => m * 2 ^ k + d) n))) := by
  induction h generalizing n with
  | nil => rfl
  | @cons c d row ds hc _ ih =>
    rw [foldDigits?, hc.1]
    dsimp only
    rw [if_pos hc.2, Magnitude.mul_add_leading hk hk' hc.2, ih, List.foldl_cons]

end Numeral

end ValuePattern
