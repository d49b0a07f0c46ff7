/-!
Sets of code points as ranges in rising order, with both ends of each range in it.
-/
namespace ValuePattern.Text

/-- Ranges of code points in rising order. -/
abbrev Ranges := List (Nat × Nat)

/-- Whether a code point lies in one of the ranges. -/
def Ranges.holds : Ranges → Nat → Bool
  | [], _ => false
  | (first, last) :: rest, n => if n < first then false else n ≤ last || holds rest n

end ValuePattern.Text
