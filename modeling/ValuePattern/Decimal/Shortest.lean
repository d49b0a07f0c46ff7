import ValuePattern.Decimal.Basic
/-!
The decimal by which a finite magnitude is written: of the decimals that read back as it, one with
the fewest digits, and of those the nearest to it. A magnitude is a whole number of units of 2^-1074
and so has a decimal expansion that ends at the 1074th place; cutting that expansion before a place,
down or up, gives the only two decimals of that length that can qualify.
-/
namespace ValuePattern.Magnitude

/-- A finite magnitude as a whole number of units of 10^-1074. -/
def expansion (m : Magnitude) : Nat := m.units * Nat.pow 5 1074

/-- The expansion without its last `drop` places, rounded to the nearer neighbour that reads back as
the magnitude, and upwards when both are equally near. -/
def cutBack? (m : Magnitude) (drop : Nat) : Option Decimal :=
  let low := m.expansion / Nat.pow 10 drop
  let decimal (digits : Nat) : Decimal := ⟨digits, (drop : Int) - 1074⟩
  let readsBack (digits : Nat) : Bool := (decimal digits).toMagnitude == m
  let nearerLow := 2 * m.expansion < Nat.pow 10 drop * (low + (low + 1))
  if readsBack low && (nearerLow || !readsBack (low + 1)) then some (decimal low)
  else if readsBack (low + 1) then some (decimal (low + 1))
  else none

/-- The first cut that reads back, of those that drop at most `drop` places. -/
def shortestWithin (m : Magnitude) : Nat → Decimal
  | 0 => ⟨m.expansion, -1074⟩
  | drop + 1 => (m.cutBack? (drop + 1)).getD (shortestWithin m drop)

/-- The decimal by which a finite magnitude is written. -/
def shortest (m : Magnitude) : Decimal :=
  m.shortestWithin (Decimal.digitCount m.expansion - 1)

end ValuePattern.Magnitude
