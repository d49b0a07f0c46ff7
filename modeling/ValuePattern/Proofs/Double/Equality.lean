import ValuePattern.Double.Basic
/-!
What the comparison of doubles as numbers tells apart. Away from NaN it is equality up to the sign of
zero, and it cannot tell apart two doubles that are the same up to that.
-/
namespace ValuePattern.Double

/-- A zero of either sign. -/
def IsZero : Double → Prop
  | nan => False
  | number _ size => size.rank = 0

/-- Two doubles are the same, or both are zeros. -/
def SameUpToZeroSign (x y : Double) : Prop := x = y ∨ x.IsZero ∧ y.IsZero

variable {x y : Double}

theorem number_beq_number {a b : Bool} {m n : Magnitude} :
    (number a m == number b n) = true ↔ m = n ∧ (a = b ∨ m.rank = 0) := by
  simp [BEq.beq, equal]

/-- For a number that is not NaN, to compare equal is to be the same up to the sign of zero. -/
theorem beq_iff_sameUpToZeroSign (hx : x ≠ nan) : (y == x) = true ↔ x.SameUpToZeroSign y := by
  cases x with
  | nan => exact absurd rfl hx
  | number a m =>
    cases y with
    | nan => simp [SameUpToZeroSign, IsZero]
    | number b n =>
      rw [number_beq_number, SameUpToZeroSign, number.injEq, IsZero, IsZero]
      constructor
      · rintro ⟨rfl, rfl | hzero⟩
        · exact .inl ⟨rfl, rfl⟩
        · exact .inr ⟨hzero, hzero⟩
      · rintro (⟨rfl, rfl⟩ | ⟨hm, hn⟩)
        · exact ⟨rfl, .inl rfl⟩
        · exact ⟨Magnitude.ext_rank (hn.trans hm.symm), .inr hn⟩

/-- No comparison tells two such doubles apart. -/
theorem SameUpToZeroSign.beq_eq (h : x.SameUpToZeroSign y) (z : Double) : (x == z) = (y == z) := by
  rcases h with rfl | ⟨hx, hy⟩
  · rfl
  · cases x with
    | nan => exact hx.elim
    | number a m =>
      cases y with
      | nan => exact hy.elim
      | number b n =>
        obtain rfl : m = n := Magnitude.ext_rank (Eq.trans hx hy.symm)
        cases z with
        | nan => rfl
        | number c k =>
          have hzero : m.rank = 0 := hx
          rw [Bool.eq_iff_iff, number_beq_number, number_beq_number]
          simp [hzero]

end ValuePattern.Double
