import Mathlib.Algebra.Group.Nat.Defs
import Mathlib.Order.Monotone.Basic
import ValuePattern.Double.Magnitude
/-!
Ranks and units. The number at a rank grows with the rank, and `rankBelow` finds the rank of a number
that has one; so rounding a magnitude that is given exactly gives it back. Rounding sees a fraction
only through its value.
-/
namespace ValuePattern.Magnitude

theorem unitsAt_eq (r : Nat) :
    unitsAt r = if r < 2 ^ 52 then r else (2 ^ 52 + r % 2 ^ 52) * 2 ^ (r / 2 ^ 52 - 1) := rfl

theorem rankBelow_eq (units : Nat) :
    rankBelow units = if units < 2 ^ 53 then units
      else units / 2 ^ (units.log2 - 52) + (units.log2 - 52) * 2 ^ 52 := rfl

theorem unitsAt_of_lt {r : Nat} (h : r < 2 ^ 52) : unitsAt r = r := if_pos h

/-- From the second run of ranks on, the step doubles from run to run. -/
theorem unitsAt_run {q t : Nat} (ht : t < 2 ^ 52) :
    unitsAt (2 ^ 52 * (q + 1) + t) = (2 ^ 52 + t) * 2 ^ q := by
  have hge : ¬2 ^ 52 * (q + 1) + t < 2 ^ 52 := by omega
  have hdiv : (2 ^ 52 * (q + 1) + t) / 2 ^ 52 = q + 1 := by omega
  have hmod : (2 ^ 52 * (q + 1) + t) % 2 ^ 52 = t := by omega
  rw [unitsAt_eq, if_neg hge, hdiv, hmod, Nat.add_sub_cancel]

/-- A run of ranks reaches up to the first rank of the next one. -/
theorem unitsAt_run_of_le {q t : Nat} (ht : t ≤ 2 ^ 52) :
    unitsAt (2 ^ 52 * (q + 1) + t) = (2 ^ 52 + t) * 2 ^ q := by
  by_cases hlt : t < 2 ^ 52
  · exact unitsAt_run hlt
  · have hnext : 2 ^ 52 * (q + 1) + t = 2 ^ 52 * (q + 1 + 1) + 0 := by omega
    have heq : t = 2 ^ 52 := by omega
    rw [hnext, unitsAt_run (by decide), heq, Nat.pow_succ]
    omega

theorem exists_run {r : Nat} (h : ¬r < 2 ^ 52) :
    ∃ q t, t < 2 ^ 52 ∧ r = 2 ^ 52 * (q + 1) + t :=
  ⟨r / 2 ^ 52 - 1, r % 2 ^ 52, by omega, by omega⟩

theorem unitsAt_lt_succ (r : Nat) : unitsAt r < unitsAt (r + 1) := by
  by_cases hr : r < 2 ^ 52
  · rw [unitsAt_of_lt hr]
    by_cases hr' : r + 1 < 2 ^ 52
    · rw [unitsAt_of_lt hr']
      exact Nat.lt_succ_self r
    · have hrun := unitsAt_run (q := 0) (t := 0) (by decide)
      have heq : r + 1 = 2 ^ 52 * (0 + 1) + 0 := by omega
      rw [heq, hrun]
      omega
  · obtain ⟨q, t, ht, rfl⟩ := exists_run hr
    rw [unitsAt_run ht, Nat.add_assoc, unitsAt_run_of_le ht]
    exact Nat.mul_lt_mul_of_pos_right (Nat.lt_succ_self _) (Nat.two_pow_pos q)

theorem unitsAt_strictMono : StrictMono unitsAt := strictMono_nat_of_lt_succ unitsAt_lt_succ

/-- Bits that are put behind a number make it longer by as many. -/
theorem log2_mul_pow_add {n k d : Nat} (hn : n ≠ 0) (hd : d < 2 ^ k) :
    (n * 2 ^ k + d).log2 = n.log2 + k := by
  have hlow := Nat.mul_le_mul_right (2 ^ k) (Nat.log2_self_le hn)
  have hhigh := Nat.mul_le_mul_right (2 ^ k) (Nat.succ_le_of_lt (Nat.lt_log2_self (n := n)))
  rw [← Nat.pow_add] at hlow hhigh
  rw [Nat.succ_mul] at hhigh
  have hpos : 0 < 2 ^ (n.log2 + k) := Nat.two_pow_pos _
  rw [Nat.log2_eq_iff (by omega), Nat.add_right_comm]
  omega

theorem log2_run {q t x : Nat} (ht : t < 2 ^ 52) (hx : x < 2 ^ q) :
    ((2 ^ 52 + t) * 2 ^ q + x).log2 = 52 + q := by
  have hfirst : (2 ^ 52 + t).log2 = 52 := (Nat.log2_eq_iff (by omega)).mpr ⟨by omega, by omega⟩
  rw [log2_mul_pow_add (by omega) hx, hfirst]

/-- The rank below a number of units in a run. -/
theorem rankBelow_run {q t x : Nat} (ht : t < 2 ^ 52) (hx : x < 2 ^ q) :
    rankBelow ((2 ^ 52 + t) * 2 ^ q + x) = 2 ^ 52 * (q + 1) + t := by
  have hpos : 0 < 2 ^ q := Nat.two_pow_pos _
  cases q with
  | zero =>
    obtain rfl : x = 0 := by simpa using hx
    rw [rankBelow_eq, if_pos (by omega)]
    omega
  | succ q =>
    have hge : ¬(2 ^ 52 + t) * 2 ^ (q + 1) + x < 2 ^ 53 := by
      have h : 2 ^ 52 * 2 ^ 1 ≤ (2 ^ 52 + t) * 2 ^ (q + 1) :=
        Nat.mul_le_mul (by omega) (Nat.pow_le_pow_right (by decide) (by omega))
      omega
    have hdiv : ((2 ^ 52 + t) * 2 ^ (q + 1) + x) / 2 ^ (q + 1) = 2 ^ 52 + t := by
      rw [Nat.mul_comm, Nat.mul_add_div hpos, Nat.div_eq_of_lt hx, Nat.add_zero]
    rw [rankBelow_eq, if_neg hge, log2_run ht hx, Nat.add_sub_cancel_left, hdiv]
    omega

/-- Every rank is found again from its units. -/
theorem rankBelow_unitsAt (r : Nat) : rankBelow (unitsAt r) = r := by
  by_cases hr : r < 2 ^ 52
  · rw [unitsAt_of_lt hr, rankBelow_eq, if_pos (by omega)]
  · obtain ⟨q, t, ht, rfl⟩ := exists_run hr
    rw [unitsAt_run ht]
    exact rankBelow_run ht (Nat.two_pow_pos q)

theorem nearest_mul_right {num den c : Nat} (hc : 0 < c) :
    nearest (num * c) (den * c) = nearest num den := by
  have hmul (a b : Nat) : a * c * b = a * b * c := Nat.mul_right_comm a c b
  have htwice : 2 * (num * c) = 2 * num * c := (Nat.mul_assoc 2 num c).symm
  have heq (a b : Nat) : (a * c == b * c) = (a == b) := by
    simp [Bool.beq_eq_decide_eq, Nat.mul_left_inj (Nat.ne_of_gt hc)]
  simp only [nearest, Nat.mul_div_mul_right _ _ hc, hmul, htwice, heq, Nat.mul_lt_mul_right hc]

/-- Equal fractions are rounded alike. -/
theorem nearest_eq_of_mul_eq {a b c d : Nat} (hb : 0 < b) (hd : 0 < d) (h : a * d = c * b) :
    nearest a b = nearest c d := by
  rw [← nearest_mul_right hd, h, Nat.mul_comm b d, nearest_mul_right hb]

/-- A magnitude is the nearest one to itself. -/
theorem nearest_units_mul (m : Magnitude) {den : Nat} (hden : 0 < den) :
    nearest (m.units * den) den = m := by
  have hless : 2 * (m.units * den) < den * (unitsAt m.rank + unitsAt (m.rank + 1)) := by
    have h := Nat.mul_lt_mul_of_pos_left (unitsAt_lt_succ m.rank) hden
    rw [Nat.mul_add, units, Nat.mul_comm _ den]
    omega
  have hrank : rankBelow (m.units * den / den) = m.rank := by
    rw [Nat.mul_div_cancel _ hden]
    exact rankBelow_unitsAt m.rank
  apply ext_rank
  simp [nearest, hrank, hless, m.rank_le]

end ValuePattern.Magnitude
