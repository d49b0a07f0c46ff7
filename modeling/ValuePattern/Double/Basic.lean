import ValuePattern.Double.Magnitude
/-!
Doubles: a sign and a magnitude, or not a number. All the numbers that are not a number count as
one. Lean's `=` tells the two zeros apart and makes NaN equal to itself; `==` is the comparison of
numbers, under which the zeros are equal and NaN differs from all.
-/
namespace ValuePattern

/-- A binary64 number. -/
inductive Double where
  | nan
  | number (negative : Bool) (size : Magnitude)
  deriving DecidableEq, Repr

namespace Double

instance : Inhabited Double := ⟨.number false .zero⟩

/-- Equality of numbers: zeros of either sign are equal, and NaN equals nothing. -/
def equal : Double → Double → Bool
  | number a x, number b y => x == y && (a == b || x.rank == 0)
  | _, _ => false

instance : BEq Double := ⟨equal⟩

/-- The number with the other sign. -/
def negate : Double → Double
  | nan => nan
  | number s x => number (!s) x

def infinity : Double := .number false .infinite

def isInfinite : Double → Bool
  | nan => false
  | number _ x => x.isInfinite

def ofNat (n : Nat) : Double := .number false (.ofNat n)

def ofInt (n : Int) : Double := .number (decide (n < 0)) (.ofNat n.natAbs)

/-- The number that a 64-bit word encodes: the top bit is the sign, the others are the rank, and
ranks past that of infinity are NaN. -/
def ofBits (word : Nat) : Double :=
  let rank := word % Nat.pow 2 63
  if h : rank ≤ topRank then .number (word / Nat.pow 2 63 % 2 == 1) ⟨rank, h⟩ else .nan

/-- The word that encodes a number; NaN has many, and none is chosen. -/
def bits? : Double → Option Nat
  | nan => none
  | number s x => some ((if s then Nat.pow 2 63 else 0) + x.rank)

@[simp] theorem negate_negate (x : Double) : x.negate.negate = x := by
  cases x <;> simp [negate]

@[simp] theorem nan_beq (x : Double) : (nan == x) = false := rfl

@[simp] theorem beq_nan (x : Double) : (x == nan) = false := by cases x <;> rfl

end Double

end ValuePattern
