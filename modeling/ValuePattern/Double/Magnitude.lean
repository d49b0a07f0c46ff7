/-!
The non-negative doubles with infinity, in their order. Every finite one is a whole number of units
of 2^-1074, and `unitsAt` gives that number for each rank. A rank is also the binary64 encoding
without its sign bit: below 2^52 the ranks are the subnormal numbers, and after that each run of 2^52
ranks doubles the step. The rank of infinity is the first one past the finite ranks; there the same
formula gives 2^1024, which is the value that rounding compares with at the upper end.
-/
namespace ValuePattern

/-- The rank of infinity. -/
def topRank : Nat := 2047 * Nat.pow 2 52

/-- A non-negative double or infinity, by its rank. -/
structure Magnitude where
  rank : Nat
  rank_le : rank ≤ topRank
  deriving DecidableEq, Repr

namespace Magnitude

/-- The size of the number at a rank, in units of 2^-1074. -/
def unitsAt (rank : Nat) : Nat :=
  if rank < Nat.pow 2 52 then rank
  else (Nat.pow 2 52 + rank % Nat.pow 2 52) * Nat.pow 2 (rank / Nat.pow 2 52 - 1)

/-- The greatest rank whose number is at most `units` units. -/
def rankBelow (units : Nat) : Nat :=
  if units < Nat.pow 2 53 then units
  else
    let e := units.log2 - 52
    units / Nat.pow 2 e + e * Nat.pow 2 52

/-- One, in units. -/
def oneUnits : Nat := Nat.pow 2 1074

/-- The size of a magnitude in units; for infinity the bound 2^1024. -/
def units (m : Magnitude) : Nat := unitsAt m.rank

def zero : Magnitude := ⟨0, Nat.zero_le _⟩

def infinite : Magnitude := ⟨topRank, Nat.le_refl _⟩

def isInfinite (m : Magnitude) : Bool := m.rank == topRank

/-- The magnitude nearest to `num / den` units; of two equally near ones the one with an even rank.
The denominator is positive. -/
def nearest (num den : Nat) : Magnitude :=
  let low := rankBelow (num / den)
  let middle := den * (unitsAt low + unitsAt (low + 1))
  let rank :=
    if 2 * num < middle || (2 * num == middle && low % 2 == 0) then low else low + 1
  ⟨min rank topRank, Nat.min_le_right _ _⟩

/-- The magnitude nearest to a natural number. -/
def ofNat (n : Nat) : Magnitude := nearest (n * oneUnits) 1

/-- The sum, rounded once. -/
def add (a b : Magnitude) : Magnitude :=
  if a.isInfinite || b.isInfinite then infinite else nearest (a.units + b.units) 1

/-- The product, rounded once; no factor is zero beside an infinite one. -/
def mul (a b : Magnitude) : Magnitude :=
  if a.isInfinite || b.isInfinite then infinite else nearest (a.units * b.units) oneUnits

@[simp] theorem rank_zero : zero.rank = 0 := rfl
@[simp] theorem units_zero : zero.units = 0 := rfl
@[simp] theorem isInfinite_infinite : infinite.isInfinite = true := rfl

theorem ext_rank {a b : Magnitude} (h : a.rank = b.rank) : a = b := by
  cases a; cases b; cases h; rfl

theorem isInfinite_iff {m : Magnitude} : m.isInfinite = true ↔ m = infinite := by
  constructor
  · intro h
    exact ext_rank (by simpa [isInfinite, infinite] using h)
  · rintro rfl
    rfl

end Magnitude

end ValuePattern
