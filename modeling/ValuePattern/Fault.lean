import ValuePattern.Span
/-!
What can be wrong with the text of a pattern. A cause says what was expected or found, and a fault
blames a span of the text for it. The wording of every message is in `Cause.message`.
-/
namespace ValuePattern

/-- What the text had to hold at some place. -/
inductive Construct where
  | key | value | string | array | object
  deriving DecidableEq, Repr

/-- How a message names a construct. -/
def Construct.description : Construct → String
  | key => "an object key"
  | value => "a valid literal"
  | string => "a string"
  | array => "an array"
  | object => "an object"

/-- Why a text is no pattern. -/
inductive Cause where
  /-- only blanks were left where something had to stand -/
  | emptyField (expected : Construct)
  /-- a construct does not begin with its opening character -/
  | unexpectedOpening (expected : Construct) (found : Char)
  /-- no second quote ends a string -/
  | unterminatedString (quote : Char)
  /-- nothing ends a bare key -/
  | unterminatedKey
  | expectedColon
  | missingValue
  | missingElement
  | unterminatedElement
  | unterminatedField
  /-- something follows a rest marker -/
  | restNotLast
  /-- something follows the whole pattern -/
  | trailingContent
  /-- an unquoted token is neither a word of the language nor a number -/
  | invalidLiteral (text : String)
  deriving DecidableEq, Repr

/-- The wording of a cause. -/
def Cause.message : Cause → String
  | emptyField expected => "expected " ++ expected.description ++ ", given empty field"
  | unexpectedOpening expected found =>
    "expected " ++ expected.description ++ ", but it starts with '" ++ found.toString ++ "'"
  | unterminatedString quote =>
    "string must end with " ++ if quote == '\'' then "single quote" else "double quotes"
  | unterminatedKey => "object key must end with ':'"
  | expectedColon => "object expected ':' after a key"
  | missingValue => "expected a value after ':'"
  | missingElement => "expected an element before ','"
  | unterminatedElement => "array element must end with ',' or ']'"
  | unterminatedField => "object value must end with ',' or '\x7d'"
  | restNotLast => "rest element must be last element"
  | trailingContent => "unexpected token"
  | invalidLiteral text => "expected a valid literal, given '" ++ text ++ "'"

/-- A cause and the span that is blamed for it. -/
structure Fault where
  cause : Cause
  span : Span
  deriving DecidableEq, Repr

/-- The fault as it stands once `n` characters are put before its text. -/
def Fault.shift (n : Nat) (f : Fault) : Fault := ⟨f.cause, f.span.shift n⟩

end ValuePattern
