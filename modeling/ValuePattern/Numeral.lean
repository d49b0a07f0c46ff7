import ValuePattern.Decimal.Basic
/-!
The number literals of patterns: decimals and the word `Infinity`, with at most one sign before
them, and whole numbers in base sixteen, eight or two, without a sign. What is no whole number with a
base goes to the standard reading of doubles, with tests before it that keep out a second sign and
words that this reading knows besides.
-/
namespace ValuePattern

/-- The standard reading of doubles: at most one sign, and then a decimal, or `inf`, `infinity` or
`nan` with each letter in either case. -/
def Double.read? (text : List Char) : Option Double :=
  match text with
  | '-' :: row => (unsigned? row).map negate
  | '+' :: row => unsigned? row
  | row => unsigned? row
where
  /-- The reading behind the sign. -/
  unsigned? (row : List Char) : Option Double :=
    match Decimal.read? row with
    | some d => some (.number false d.toMagnitude)
    | none =>
      let word := row.map Char.toLower
      if word = "inf".toList || word = "infinity".toList then some .infinity
      else if word = "nan".toList then some .nan
      else none

namespace Numeral

/-- Takes up the digits of a whole number one by one, each time multiplying by the base and then
adding the digit, both rounded. -/
def foldDigits? (base : Nat) : Magnitude → List Char → Option Magnitude
  | size, [] => some size
  | size, c :: row =>
    match Text.hexDigit? c with
    | none => none
    | some d =>
      if d < base then foldDigits? base ((size.mul (.ofNat base)).add (.ofNat d)) row else none

/-- A whole number with a base mark before at least one digit. -/
def based? : List Char → Option Double
  | '0' :: mark :: c :: row =>
    let base? : Option Nat :=
      if mark == 'x' || mark == 'X' then some 16
      else if mark == 'o' || mark == 'O' then some 8
      else if mark == 'b' || mark == 'B' then some 2
      else none
    base?.bind fun base => (foldDigits? base .zero (c :: row)).map (.number false)
  | _ => none

/-- Whether a text begins with a sign. -/
def startsSigned : List Char → Bool
  | c :: _ => c == '+' || c == '-'
  | [] => false

/-- Whether a character may stand in a decimal, signs included. -/
def isDecimalChar (c : Char) : Bool :=
  c.isDigit || c == '.' || c == 'e' || c == 'E' || c == '+' || c == '-'

/-- The number that a literal denotes. -/
def read? (text : List Char) : Option Double :=
  let (negative, body) :=
    match text with
    | '-' :: row => (true, row)
    | '+' :: row => (false, row)
    | row => (false, row)
  let signed (x : Double) : Double := if negative then x.negate else x
  if startsSigned body then none
  else if body = "Infinity".toList then some (signed .infinity)
  else
    match if body.length = text.length then based? body else none with
    | some x => some x
    -- the standard reading would take `inf` and `nan` too
    | none => if body.all isDecimalChar then (Double.read? body).map signed else none

end Numeral

end ValuePattern
