import ValuePattern.Double.Basic
import ValuePattern.Text.Digit
/-!
Decimals: a natural number times a power of ten. They are what the digits of a numeral say before
any rounding, and each is rounded once to reach a double.
-/
namespace ValuePattern

/-- The number `digits * 10 ^ exponent`. -/
structure Decimal where
  digits : Nat
  exponent : Int
  deriving DecidableEq, Repr

namespace Decimal

/-- The value of a row of decimal digits, the highest first. -/
def natOfDigits (row : List Char) : Nat :=
  row.foldl (fun n c => 10 * n + Text.digitValue c) 0

/-- The decimal digits of a number, the highest first. -/
def digitsOf (n : Nat) : List Char := Nat.toDigits 10 n

/-- How often `base` divides into a number before less than `base` is left, and what is left. The
powers of the base with which it divides are squared from step to step. -/
def divideDown (base : Nat) : (steps : Nat) → (n : Nat) → Nat × Nat
  | 0, n => (0, n)
  | steps + 1, n =>
    if n < base then (0, n)
    else
      let (times, left) := divideDown (base * base) steps n
      if left < base then (2 * times, left) else (2 * times + 1, left / base)

/-- How many decimal digits a number has; zero has one. -/
def digitCount (n : Nat) : Nat := (divideDown 10 n.log2 n).1 + 1

/-- Reads the digits of an exponent, with at most one sign before them. -/
def readExponent? (text : List Char) : Option Int :=
  let natural? (row : List Char) : Option Nat :=
    if !row.isEmpty && row.all Char.isDigit then some (natOfDigits row) else none
  match text with
  | '-' :: row => (natural? row).map fun n => -(n : Int)
  | '+' :: row => (natural? row).map Int.ofNat
  | row => (natural? row).map Int.ofNat

/-- Reads a decimal without a sign: digits with at most one point among or around them, and then,
after `e` or `E`, an exponent. -/
def read? (text : List Char) : Option Decimal :=
  let whole := text.takeWhile Char.isDigit
  let afterWhole := text.dropWhile Char.isDigit
  let (fraction, afterFraction) :=
    match afterWhole with
    | '.' :: row => (row.takeWhile Char.isDigit, row.dropWhile Char.isDigit)
    | row => ([], row)
  if whole.isEmpty && fraction.isEmpty then none
  else
    let decimal (exponent : Int) : Decimal :=
      ⟨natOfDigits (whole ++ fraction), exponent - fraction.length⟩
    match afterFraction with
    | [] => some (decimal 0)
    | c :: row => if c == 'e' || c == 'E' then (readExponent? row).map decimal else none

/-- The magnitude nearest to a decimal. With `k` digits and the exponent `e` the decimal lies below
10^(k + e) and, unless it is zero, not below a tenth of that, so the two outer tests only spare the
powers of ten that no double comes near to. -/
def toMagnitude (d : Decimal) : Magnitude :=
  let order : Int := d.exponent + digitCount d.digits
  if d.digits == 0 then .zero
  else if 310 < order then .infinite
  else if order < -330 then .zero
  else
    .nearest (d.digits * Nat.pow 10 d.exponent.toNat * Magnitude.oneUnits)
      (Nat.pow 10 (-d.exponent).toNat)

end Decimal

end ValuePattern
