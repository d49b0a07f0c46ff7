import ValuePattern.Decimal.Shortest
import ValuePattern.Proofs.Decimal.Scale
/-!
The decimal by which a finite magnitude is written reads back as that magnitude. Every cut of the
expansion is tried before it is taken, so what has to be shown is that the whole expansion, which is
taken where no cut qualifies, is rounded to the magnitude.
-/
namespace ValuePattern.Magnitude

variable {m : Magnitude}

/-- A finite magnitude is less than the bound 2^1024. -/
theorem units_lt (h : m.isInfinite = false) : m.units < 2 ^ 2098 := by
  have hne : m.rank ≠ topRank := by simpa [isInfinite] using h
  have hlt : m.rank < topRank := Nat.lt_of_le_of_ne m.rank_le hne
  have hrun : topRank = 2 ^ 52 * (2046 + 1) + 0 := by decide
  have htop : unitsAt topRank = 2 ^ 2098 := by
    rw [hrun, unitsAt_run (by decide)]
    decide +kernel
  rw [← htop]
  exact unitsAt_strictMono hlt

/-- The order of an expansion to `places` places keeps clear of both outer tests of the rounding. -/
theorem digitCount_expansion {u places : Nat} (hu : u ≠ 0) (hlt : u < 2 ^ (places + 1024))
    (hplaces : 330 ≤ places) (hsmall : 2 ^ places ≤ 10 ^ 330) :
    places ≤ Decimal.digitCount (u * 5 ^ places) + 330 ∧
      Decimal.digitCount (u * 5 ^ places) ≤ places + 310 := by
  have hten : 5 ^ places * 2 ^ places = 10 ^ places := (Nat.mul_pow 5 2 places).symm
  have hpos (k : Nat) : 0 < 10 ^ k := Nat.pow_pos (by decide)
  have hsum (k : Nat) : 10 ^ places * 10 ^ k = 10 ^ (places + k) := (Nat.pow_add 10 places k).symm
  have hsplit (k : Nat) : 2 ^ (places + k) * 5 ^ places = 10 ^ places * 2 ^ k := by
    rw [Nat.pow_add, ← hten]
    ring
  have hfive : 0 < 5 ^ places := Nat.pow_pos (by decide)
  have hne : u * 5 ^ places ≠ 0 := Nat.mul_ne_zero hu (Nat.ne_of_gt hfive)
  have hlow : 10 ^ (places - 330) ≤ u * 5 ^ places := by
    refine Nat.le_of_mul_le_mul_right ?_ (hpos 330)
    calc 10 ^ (places - 330) * 10 ^ 330 = 5 ^ places * 2 ^ places := by
          rw [← Nat.pow_add, Nat.sub_add_cancel hplaces, hten]
      _ ≤ 5 ^ places * 10 ^ 330 := Nat.mul_le_mul_left _ hsmall
      _ ≤ u * 5 ^ places * 10 ^ 330 :=
          Nat.mul_le_mul_right _ (Nat.le_mul_of_pos_left _ (Nat.pos_of_ne_zero hu))
  have hhigh : u * 5 ^ places < 10 ^ (places + 310) := by
    calc u * 5 ^ places < 2 ^ (places + 1024) * 5 ^ places :=
          Nat.mul_lt_mul_of_pos_right hlt hfive
      _ = 10 ^ places * 2 ^ 1024 := hsplit 1024
      _ ≤ 10 ^ places * 10 ^ 310 := Nat.mul_le_mul_left _ (by decide +kernel)
      _ = 10 ^ (places + 310) := hsum 310
  have hlog := Nat.le_log_of_pow_le (by decide) hlow
  have hlog' := Nat.log_lt_of_lt_pow hne hhigh
  rw [Decimal.digitCount_eq_log]
  omega

theorem toMagnitude_expansion (h : m.isInfinite = false) :
    Decimal.toMagnitude ⟨m.expansion, -1074⟩ = m := by
  -- the number of places is kept as a variable, for its powers are too great to be looked into
  have main (places : Nat) (hp : places = 1074) :
      Decimal.toMagnitude ⟨m.units * Nat.pow 5 places, -(places : Int)⟩ = m := by
    have hone : oneUnits = Nat.pow 2 places := by rw [hp, ← oneUnits]
    by_cases hm : m.units = 0
    · have hrank : m.rank = 0 := unitsAt_strictMono.injective hm
      rw [hm, Nat.zero_mul]
      exact ext_rank hrank.symm
    · have hlt : m.units < 2 ^ (places + 1024) := by
        rw [hp]
        exact units_lt h
      have hsmall : 2 ^ places ≤ 10 ^ 330 := by
        rw [hp]
        decide +kernel
      obtain ⟨hlow, hhigh⟩ := digitCount_expansion hm hlt (by omega) hsmall
      have hne : m.units * 5 ^ places ≠ 0 :=
        Nat.mul_ne_zero hm (Nat.ne_of_gt (Nat.pow_pos (by decide)))
      have hinfinite : ¬310 < -(places : Int) + Decimal.digitCount (m.units * 5 ^ places) := by omega
      have hzero : ¬-(places : Int) + Decimal.digitCount (m.units * 5 ^ places) < -330 := by omega
      have hup : (-(places : Int)).toNat = 0 := by omega
      have hdown : (-(-(places : Int))).toNat = places := by omega
      -- the factors of the expansion make up the power of ten by which it is divided
      have hten : m.units * 5 ^ places * 10 ^ 0 * 2 ^ places = m.units * 10 ^ places := by
        rw [Nat.pow_zero, Nat.mul_one, Nat.mul_assoc, ← Nat.mul_pow]
      simp only [Decimal.toMagnitude, Nat.pow_eq, hone, beq_iff_eq, hne, if_false, hinfinite, hzero,
        hup, hdown, hten]
      exact nearest_units_mul m (Nat.pow_pos (by decide))
  exact main 1074 rfl

/-- Only cuts that read back are taken. -/
theorem cutBack?_toMagnitude {drop : Nat} {d : Decimal} (h : m.cutBack? drop = some d) :
    d.toMagnitude = m := by
  unfold cutBack? at h
  dsimp only at h
  split at h
  · rename_i hlow
    obtain rfl := Option.some.inj h
    simp only [Bool.and_eq_true, beq_iff_eq] at hlow
    exact hlow.1
  split at h
  · rename_i hhigh
    obtain rfl := Option.some.inj h
    exact beq_iff_eq.mp hhigh
  · simp at h

theorem shortestWithin_toMagnitude (h : m.isInfinite = false) (drop : Nat) :
    (m.shortestWithin drop).toMagnitude = m := by
  induction drop with
  | zero => exact toMagnitude_expansion h
  | succ drop ih =>
    rw [shortestWithin]
    cases hcut : m.cutBack? (drop + 1) with
    | none => exact ih
    | some d => exact cutBack?_toMagnitude hcut

/-- The decimal of a finite magnitude reads back as the magnitude. -/
theorem shortest_toMagnitude (h : m.isInfinite = false) : m.shortest.toMagnitude = m :=
  shortestWithin_toMagnitude h _

end ValuePattern.Magnitude
