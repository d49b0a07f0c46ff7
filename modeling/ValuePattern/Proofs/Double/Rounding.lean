import Mathlib.Tactic.Ring
import ValuePattern.Proofs.Double.Rank
/-!
Rounding of natural numbers. A number of units lies in a run of ranks, and there rounding depends only
on what is left over a multiple of the step. So a power of two moves a rounded number by whole runs, a
number of at most 53 bits is not changed by rounding, and what is less than half a step is lost when
it is added.
-/
namespace ValuePattern.Magnitude

/-- A number of units lies in some run: it is a multiple of the step there, and less than a step. -/
theorem exists_units_run {u : Nat} (hu : 2 ^ 52 ≤ u) :
    ∃ e t x, t < 2 ^ 52 ∧ x < 2 ^ e ∧ u = (2 ^ 52 + t) * 2 ^ e + x := by
  have hne : u ≠ 0 := by omega
  have hlog := (Nat.le_log2 hne).mpr hu
  have hlow : 2 ^ 52 * 2 ^ (u.log2 - 52) ≤ u := by
    rw [← Nat.pow_add, Nat.add_sub_cancel' hlog]
    exact Nat.log2_self_le hne
  have hhigh : u < 2 ^ 53 * 2 ^ (u.log2 - 52) := by
    have h := Nat.lt_log2_self (n := u)
    rwa [← Nat.pow_add, show 53 + (u.log2 - 52) = u.log2 + 1 by omega]
  have hpos : 0 < 2 ^ (u.log2 - 52) := Nat.two_pow_pos _
  have hquot := (Nat.le_div_iff_mul_le hpos).mpr hlow
  have hquot' := (Nat.div_lt_iff_lt_mul hpos).mpr hhigh
  refine ⟨u.log2 - 52, u / 2 ^ (u.log2 - 52) - 2 ^ 52, u % 2 ^ (u.log2 - 52), by omega,
    Nat.mod_lt _ hpos, ?_⟩
  rw [Nat.add_sub_cancel' hquot, Nat.div_add_mod']

/-- The rank to which a number of units is rounded where no number is too great. -/
def roundedRank (u : Nat) : Nat :=
  let low := rankBelow u
  if 2 * u < unitsAt low + unitsAt (low + 1) ||
      (2 * u == unitsAt low + unitsAt (low + 1) && low % 2 == 0) then low
  else low + 1

/-- The magnitude at a rank, which is infinity from its rank on. -/
def ofRank (r : Nat) : Magnitude := ⟨min r topRank, Nat.min_le_right _ _⟩

theorem nearest_one (u : Nat) : nearest u 1 = ofRank (roundedRank u) := by
  simp [nearest, roundedRank, ofRank]

theorem ofRank_of_le {r : Nat} (h : topRank ≤ r) : ofRank r = infinite :=
  ext_rank (Nat.min_eq_right h)

theorem rank_ofRank {r : Nat} (h : r < topRank) : (ofRank r).rank = r :=
  Nat.min_eq_left (Nat.le_of_lt h)

theorem isInfinite_ofRank {r : Nat} (h : r < topRank) : (ofRank r).isInfinite = false := by
  rw [isInfinite, rank_ofRank h]
  exact beq_false_of_ne (Nat.ne_of_lt h)

theorem units_ofRank {r : Nat} (h : r < topRank) : (ofRank r).units = unitsAt r := by
  rw [units, rank_ofRank h]

/-- In a run, what is left over a multiple of the step decides: more than half a step goes up, and half
a step goes to the even neighbour. -/
theorem roundedRank_run {e t x : Nat} (ht : t < 2 ^ 52) (hx : x < 2 ^ e) :
    roundedRank ((2 ^ 52 + t) * 2 ^ e + x) =
      2 ^ 52 * (e + 1) + t + if 2 ^ e < 2 * x ∨ 2 * x = 2 ^ e ∧ t % 2 = 1 then 1 else 0 := by
  have hsucc : unitsAt (2 ^ 52 * (e + 1) + t + 1) = (2 ^ 52 + t) * 2 ^ e + 2 ^ e := by
    rw [Nat.add_assoc, unitsAt_run_of_le ht, Nat.add_succ, Nat.succ_mul]
  have hparity : (2 ^ 52 * (e + 1) + t) % 2 = t % 2 := by omega
  simp only [roundedRank, rankBelow_run ht hx, unitsAt_run ht, hsucc, hparity]
  generalize (2 ^ 52 + t) * 2 ^ e = m
  simp only [Bool.or_eq_true, decide_eq_true_eq, Bool.and_eq_true, beq_iff_eq]
  split <;> split <;> omega

theorem roundedRank_mul_pow {u : Nat} (hu : 2 ^ 52 ≤ u) (k : Nat) :
    roundedRank (u * 2 ^ k) = roundedRank u + 2 ^ 52 * k := by
  obtain ⟨e, t, x, ht, hx, rfl⟩ := exists_units_run hu
  have hscaled : ((2 ^ 52 + t) * 2 ^ e + x) * 2 ^ k = (2 ^ 52 + t) * 2 ^ (e + k) + x * 2 ^ k := by
    rw [Nat.add_mul, Nat.mul_assoc, ← Nat.pow_add]
  have hpos : 0 < 2 ^ k := Nat.two_pow_pos _
  have hx' : x * 2 ^ k < 2 ^ (e + k) := by
    rw [Nat.pow_add]
    exact Nat.mul_lt_mul_of_pos_right hx hpos
  have hless : 2 ^ (e + k) < 2 * (x * 2 ^ k) ↔ 2 ^ e < 2 * x := by
    rw [Nat.pow_add, ← Nat.mul_assoc, Nat.mul_lt_mul_right hpos]
  have heq : 2 * (x * 2 ^ k) = 2 ^ (e + k) ↔ 2 * x = 2 ^ e := by
    rw [Nat.pow_add, ← Nat.mul_assoc, Nat.mul_left_inj (by omega)]
  rw [hscaled, roundedRank_run ht hx', roundedRank_run ht hx]
  simp only [hless, heq]
  omega

theorem le_roundedRank {e u : Nat} (hu : 2 ^ (52 + e) ≤ u) : 2 ^ 52 * (e + 1) ≤ roundedRank u := by
  have hlow : 2 ^ 52 ≤ u := Nat.le_trans (Nat.pow_le_pow_right (by decide) (by omega)) hu
  obtain ⟨e', t, x, ht, hx, rfl⟩ := exists_units_run hlow
  have he : 52 + e ≤ 52 + e' := by
    rw [← log2_run ht hx]
    exact (Nat.le_log2 (by omega)).mpr hu
  rw [roundedRank_run ht hx]
  omega

theorem ofNat_zero : ofNat 0 = zero := by
  rw [ofNat, Nat.zero_mul]
  rfl

/-- A natural number is a double. -/
def Exact (n : Nat) : Prop := (ofNat n).isInfinite = false ∧ (ofNat n).units = n * oneUnits

/-- The exponent of one is kept as a variable, for its power of two is too great to be looked into. -/
theorem oneUnits_eq {places : Nat} (h : places = 1074) : oneUnits = 2 ^ places := by
  unfold oneUnits
  rw [← h]
  rfl

theorem oneUnits_pos : 0 < oneUnits := by
  obtain ⟨places, hplaces⟩ : ∃ places, places = 1074 := ⟨_, rfl⟩
  rw [oneUnits_eq hplaces]
  exact Nat.two_pow_pos places

theorem topRank_eq : topRank = 2 ^ 52 * 2047 := by decide

theorem ofNat_eq_ofRank {n : Nat} (hn : 2 ^ 52 ≤ n) :
    ofNat n = ofRank (roundedRank n + 2 ^ 52 * 1074) := by
  obtain ⟨places, hplaces⟩ : ∃ places, places = 1074 := ⟨_, rfl⟩
  rw [ofNat, nearest_one, oneUnits_eq hplaces, roundedRank_mul_pow hn, hplaces]

theorem nearest_unitsAt {r : Nat} (hr : r < topRank) : nearest (unitsAt r) 1 = ofRank r := by
  have h := nearest_units_mul (ofRank r) Nat.one_pos
  rwa [units_ofRank hr, Nat.mul_one] at h

theorem exact_of_unitsAt {n r : Nat} (hr : r < topRank) (h : unitsAt r = n * oneUnits) : Exact n := by
  rw [Exact, ofNat, ← h, nearest_unitsAt hr]
  exact ⟨isInfinite_ofRank hr, units_ofRank hr⟩

/-- A number of at most 53 bits is a double, and so is what a moderate power of two makes of it. -/
theorem exact_mul_pow {m k : Nat} (hm : m < 2 ^ 53) (hk : k ≤ 900) : Exact (m * 2 ^ k) := by
  by_cases hzero : m = 0
  · apply exact_of_unitsAt (r := 0) (by decide)
    rw [hzero, Nat.zero_mul, Nat.zero_mul]
    rfl
  · have hlog : m.log2 ≤ 52 := by
      have h := (Nat.log2_lt hzero).mpr hm
      omega
    have hlow : 2 ^ 52 ≤ m * 2 ^ (52 - m.log2) := by
      have h := Nat.mul_le_mul_right (2 ^ (52 - m.log2)) (Nat.log2_self_le hzero)
      rwa [← Nat.pow_add, Nat.add_sub_cancel' hlog] at h
    have hhigh : m * 2 ^ (52 - m.log2) < 2 ^ 53 := by
      have h := Nat.mul_lt_mul_of_pos_right (Nat.lt_log2_self (n := m))
        (Nat.two_pow_pos (52 - m.log2))
      rwa [← Nat.pow_add, show m.log2 + 1 + (52 - m.log2) = 53 by omega] at h
    obtain ⟨t, ht⟩ : ∃ t, m * 2 ^ (52 - m.log2) = 2 ^ 52 + t := Nat.exists_eq_add_of_le hlow
    obtain ⟨places, hplaces⟩ : ∃ places, places = 1074 := ⟨_, rfl⟩
    have htop := topRank_eq
    apply exact_of_unitsAt (r := 2 ^ 52 * (m.log2 + k + 1022 + 1) + t) (by omega)
    have hexponent : 52 - m.log2 + (m.log2 + k + 1022) = k + places := by omega
    rw [unitsAt_run (by omega), ← ht, oneUnits_eq hplaces, Nat.mul_assoc, Nat.mul_assoc,
      ← Nat.pow_add, ← Nat.pow_add, hexponent]

theorem exact_of_lt {m : Nat} (hm : m < 2 ^ 53) : Exact m := by
  simpa using exact_mul_pow (k := 0) hm (by omega)

section Steps

variable {a : Magnitude} {m n d k r : Nat}

theorem Exact.mul_eq (ha : a.isInfinite = false) (hn : Exact n) :
    a.mul (ofNat n) = nearest (a.units * n) 1 := by
  rw [mul, ha, hn.1, hn.2, Bool.or_self, if_neg Bool.false_ne_true]
  exact nearest_eq_of_mul_eq oneUnits_pos Nat.one_pos (by ring)

theorem Exact.add_eq (ha : a.isInfinite = false) (hn : Exact n) :
    a.add (ofNat n) = nearest (a.units + n * oneUnits) 1 := by
  rw [add, ha, hn.1, hn.2, Bool.or_self, if_neg Bool.false_ne_true]

theorem Exact.mul_ofNat (hm : Exact m) (hn : Exact n) :
    (ofNat m).mul (ofNat n) = ofNat (m * n) := by
  rw [hn.mul_eq hm.1, hm.2, Nat.mul_right_comm, ofNat]

theorem Exact.add_ofNat (hm : Exact m) (hn : Exact n) :
    (ofNat m).add (ofNat n) = ofNat (m + n) := by
  rw [hn.add_eq hm.1, hm.2, ← Nat.add_mul, ofNat]

theorem infinite_mul (b : Magnitude) : infinite.mul b = infinite := by
  rw [mul, isInfinite_infinite, Bool.true_or, if_pos rfl]

theorem infinite_add (b : Magnitude) : infinite.add b = infinite := by
  rw [add, isInfinite_infinite, Bool.true_or, if_pos rfl]

/-- A power of two moves a rank by as many runs. -/
theorem ofRank_mul_pow (hr : 2 ^ 52 ≤ r) (hk : k ≤ 52) :
    (ofRank r).mul (ofNat (2 ^ k)) = ofRank (r + 2 ^ 52 * k) := by
  by_cases hfinite : r < topRank
  · have hbase : Exact (2 ^ k) := exact_of_lt (Nat.pow_lt_pow_right (by decide) (by omega))
    obtain ⟨e, t, ht, rfl⟩ := exists_run (Nat.not_lt.mpr hr)
    have hrun : 2 ^ 52 * (e + 1) + t + 2 ^ 52 * k = 2 ^ 52 * (e + k + 1) + t := by omega
    have hstep : 0 < 2 ^ (e + k) := Nat.two_pow_pos _
    rw [hbase.mul_eq (isInfinite_ofRank hfinite), units_ofRank hfinite, unitsAt_run ht,
      Nat.mul_assoc, ← Nat.pow_add, hrun, nearest_one, ← Nat.add_zero (_ * _),
      roundedRank_run ht hstep, if_neg (by omega), Nat.add_zero]
  · rw [ofRank_of_le (Nat.not_lt.mp hfinite), infinite_mul, ofRank_of_le (by omega)]

/-- Where doubles are far enough apart, a digit is less than half a step and is lost. -/
theorem ofRank_add_of_lt (hr : 2 ^ 52 * (k + 1076) ≤ r) (hd : d < 2 ^ k) (hk : k ≤ 52) :
    (ofRank r).add (ofNat d) = ofRank r := by
  by_cases hfinite : r < topRank
  · have hdigit : Exact d :=
      exact_of_lt (Nat.lt_trans hd (Nat.pow_lt_pow_right (by decide) (by omega)))
    obtain ⟨e, t, ht, rfl⟩ := exists_run (r := r) (by omega)
    obtain ⟨places, hplaces⟩ : ∃ places, places = 1074 := ⟨_, rfl⟩
    have hless : 2 * (d * oneUnits) < 2 ^ e := by
      calc 2 * (d * oneUnits) = d * 2 ^ (places + 1) := by
            rw [oneUnits_eq hplaces, Nat.pow_succ]
            ring
        _ < 2 ^ k * 2 ^ (places + 1) := Nat.mul_lt_mul_of_pos_right hd (Nat.two_pow_pos _)
        _ ≤ 2 ^ e := by
            rw [← Nat.pow_add]
            exact Nat.pow_le_pow_right (by decide) (by omega)
    rw [hdigit.add_eq (isInfinite_ofRank hfinite), units_ofRank hfinite, unitsAt_run ht,
      nearest_one, roundedRank_run ht (by omega), if_neg (by omega), Nat.add_zero]
  · rw [ofRank_of_le (Nat.not_lt.mp hfinite), infinite_add]

/-- Once doubles are two apart or more, the digit that comes behind a number is lost. -/
theorem mul_pow_add (hn : 2 ^ 53 ≤ n) (hd : d < 2 ^ k) (hk : k ≤ 52) :
    ((ofNat n).mul (ofNat (2 ^ k))).add (ofNat d) = ofNat (n * 2 ^ k) := by
  have hfar : 2 ^ 52 * 2 ≤ roundedRank n := le_roundedRank (e := 1) hn
  have hn' : 2 ^ 52 ≤ n := Nat.le_trans (by decide) hn
  have hlarge : 2 ^ 52 ≤ n * 2 ^ k := Nat.le_trans hn' (Nat.le_mul_of_pos_right n (Nat.two_pow_pos k))
  rw [ofNat_eq_ofRank hn', ofRank_mul_pow (by omega) hk, ofRank_add_of_lt (by omega) hd hk,
    ofNat_eq_ofRank hlarge, roundedRank_mul_pow hn', Nat.add_right_comm]

end Steps

end ValuePattern.Magnitude
