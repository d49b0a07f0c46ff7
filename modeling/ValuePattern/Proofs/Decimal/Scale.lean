import Mathlib.Data.Nat.Log
import Mathlib.Tactic.Ring
import ValuePattern.Decimal.Basic
import ValuePattern.Proofs.Double.Rank
/-!
The magnitude of a decimal depends on its value only: digits and exponent may be traded for one
another. Both outer tests of the rounding look at the order of a decimal, which is told by its number
of digits, and that number is a logarithm.
-/
namespace ValuePattern.Decimal

theorem log_eq_of_pow_le {base n k : Nat} (hb : 1 < base) (hlow : base ^ k ≤ n)
    (hhigh : n < base ^ (k + 1)) : Nat.log base n = k :=
  have hn : n ≠ 0 := Nat.ne_of_gt (Nat.lt_of_lt_of_le (Nat.pow_pos (by omega)) hlow)
  (Nat.log_eq_iff (.inr ⟨hb, hn⟩)).mpr ⟨hlow, hhigh⟩

/-- With enough steps the division goes down all the way. -/
theorem divideDown_eq {base n : Nat} (steps : Nat) (hb : 1 < base) (hn : n < base ^ 2 ^ steps) :
    divideDown base steps n = (Nat.log base n, n / base ^ Nat.log base n) := by
  induction steps generalizing base with
  | zero =>
    have hlog : Nat.log base n = 0 := Nat.log_of_lt (by simpa using hn)
    simp [divideDown, hlog]
  | succ steps ih =>
    rw [divideDown]
    split
    · rename_i h
      have hlog : Nat.log base n = 0 := Nat.log_of_lt h
      simp [hlog]
    · rename_i h
      have hsquare : 1 < base * base :=
        Nat.lt_of_lt_of_le hb (Nat.le_mul_of_pos_left base (by omega))
      have hpow (k : Nat) : (base * base) ^ k = base ^ (2 * k) := by
        rw [Nat.pow_mul, Nat.pow_two]
      rw [ih hsquare (by rwa [hpow, ← Nat.pow_succ'])]
      have hne : n ≠ 0 := by omega
      have hlow : base ^ (2 * Nat.log (base * base) n) ≤ n := by
        rw [← hpow]
        exact Nat.pow_log_le_self _ hne
      have hhigh : n < base ^ (2 * Nat.log (base * base) n + 1 + 1) := by
        have := Nat.lt_pow_succ_log_self hsquare n
        rwa [hpow] at this
      rw [hpow]
      generalize Nat.log (base * base) n = k at hlow hhigh
      have hpos : 0 < base ^ (2 * k) := Nat.pow_pos (by omega)
      simp only
      split
      · rename_i hleft
        rw [Nat.div_lt_iff_lt_mul hpos, ← Nat.pow_succ'] at hleft
        rw [log_eq_of_pow_le hb hlow hleft]
      · rename_i hleft
        rw [Nat.div_lt_iff_lt_mul hpos, ← Nat.pow_succ', Nat.not_lt] at hleft
        rw [log_eq_of_pow_le hb hleft hhigh, Nat.div_div_eq_div_mul, ← Nat.pow_succ]

theorem digitCount_eq_log (n : Nat) : digitCount n = Nat.log 10 n + 1 := by
  have hsteps : n < 10 ^ 2 ^ n.log2 := by
    calc n < 2 ^ (n.log2 + 1) := Nat.lt_log2_self
      _ ≤ 2 ^ 2 ^ n.log2 := Nat.pow_le_pow_right (by decide) Nat.lt_two_pow_self
      _ ≤ 10 ^ 2 ^ n.log2 := Nat.pow_le_pow_left (by decide) _
  rw [digitCount, divideDown_eq _ (by decide) hsteps]

theorem digitCount_mul_pow {n : Nat} (hn : n ≠ 0) (k : Nat) :
    digitCount (n * 10 ^ k) = digitCount n + k := by
  have hlog : Nat.log 10 (n * 10 ^ k) = Nat.log 10 n + k := by
    apply log_eq_of_pow_le (by decide)
    · rw [Nat.pow_add]
      exact Nat.mul_le_mul_right _ (Nat.pow_log_le_self 10 hn)
    · rw [Nat.add_right_comm, Nat.pow_add]
      exact Nat.mul_lt_mul_of_pos_right (Nat.lt_pow_succ_log_self (by decide) n)
        (Nat.pow_pos (by decide))
  rw [digitCount_eq_log, digitCount_eq_log, hlog]
  omega

/-- Zeros behind the digits may be moved to the exponent. -/
theorem toMagnitude_mul_pow (n k : Nat) (e : Int) :
    toMagnitude ⟨n * 10 ^ k, e⟩ = toMagnitude ⟨n, e + k⟩ := by
  by_cases hn : n = 0
  · simp [toMagnitude, hn]
  · have hn' : n * 10 ^ k ≠ 0 := Nat.mul_ne_zero hn (Nat.ne_of_gt (Nat.pow_pos (by decide)))
    have horder : e + (digitCount (n * 10 ^ k) : Int) = e + k + digitCount n := by
      rw [digitCount_mul_pow hn]
      omega
    have hexponent : 10 ^ k * 10 ^ e.toNat * 10 ^ (-(e + k)).toNat =
        10 ^ (e + k).toNat * 10 ^ (-e).toNat := by
      rw [← Nat.pow_add, ← Nat.pow_add, ← Nat.pow_add]
      congr 1
      omega
    have hvalue (u : Nat) : n * 10 ^ k * 10 ^ e.toNat * u * 10 ^ (-(e + k)).toNat =
        n * 10 ^ (e + k).toNat * u * 10 ^ (-e).toNat := by
      calc n * 10 ^ k * 10 ^ e.toNat * u * 10 ^ (-(e + k)).toNat
          = n * u * (10 ^ k * 10 ^ e.toNat * 10 ^ (-(e + k)).toNat) := by ring
        _ = n * u * (10 ^ (e + k).toNat * 10 ^ (-e).toNat) := by rw [hexponent]
        _ = n * 10 ^ (e + k).toNat * u * 10 ^ (-e).toNat := by ring
    have hnearest := Magnitude.nearest_eq_of_mul_eq (Nat.pow_pos (by decide))
      (Nat.pow_pos (by decide)) (hvalue Magnitude.oneUnits)
    simp only [toMagnitude, beq_iff_eq, hn, hn', if_false, horder, Nat.pow_eq, hnearest]

end ValuePattern.Decimal
