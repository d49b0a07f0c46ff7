import ValuePattern.Decimal.Shortest
/-!
Numbers written out by place, never with an exponent: the whole part, and after a point the places
up to the last one that is not zero. The words for infinity differ between what is written, so the
caller gives the word.
-/
namespace ValuePattern

/-- A decimal written out by place. -/
def Decimal.positional (d : Decimal) : List Char :=
  let row := digitsOf d.digits ++ List.replicate d.exponent.toNat '0'
  let places := (-d.exponent).toNat
  let padded := List.replicate (places + 1 - row.length) '0' ++ row
  let whole := padded.take (padded.length - places)
  let fraction := ((padded.drop (padded.length - places)).reverse.dropWhile (· == '0')).reverse
  if fraction.isEmpty then whole else whole ++ '.' :: fraction

/-- The text of a number, with the given word for infinity. -/
def Double.text (infinityWord : String) : Double → String
  | .nan => "NaN"
  | .number negative size =>
    (if negative then "-" else "") ++
      if size.isInfinite then infinityWord else String.ofList size.shortest.positional

end ValuePattern
