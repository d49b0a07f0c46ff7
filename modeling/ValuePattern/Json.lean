import ValuePattern.Value.Basic
/-!
JSON as a decoder gives it, and the values that it becomes. How text is read as JSON is left to the
decoder. An input is bytes and how they end, and a decoder gives the JSON values in it in order, up to
the end or up to the first one that is bad.
-/
namespace ValuePattern

/-- A JSON value. A number is there as a double, if it can be one; the fields of an object are in
order. -/
inductive Json where
  | null
  | boolean (truth : Bool)
  | number (double? : Option Double)
  | string (text : String)
  | array (items : List Json)
  | object (fields : List (String × Json))
  deriving Repr

namespace Value

mutual

/-- The value that a JSON value becomes. A number that can be no double becomes NaN, and fields are
inserted one after another. -/
def ofJson : Json → Value
  | .null => .null
  | .boolean truth => .boolean truth
  | .number double? => .number (double?.getD .nan)
  | .string text => .string text
  | .array items => .array (ofItems items)
  | .object fields => .object (Entries.ofPairs (ofFields fields))

def ofItems : List Json → List Value
  | [] => []
  | item :: items => ofJson item :: ofItems items

def ofFields : List (String × Json) → List (String × Value)
  | [] => []
  | (name, content) :: fields => (name, ofJson content) :: ofFields fields

end

end Value

/-- What can be read from a file or from the standard input: bytes, and behind them either the end or
something that goes wrong, in words. -/
structure Input where
  bytes : List UInt8
  fault? : Option String
  deriving DecidableEq, Repr

namespace Json

/-- What a decoder makes of an input: its values up to the end or to the first bad one, and in the
latter case the cause, in words. -/
structure Stream where
  values : List Json
  cause? : Option String
  deriving Repr

/-- A way to decode inputs. -/
abbrev Decoder := Input → Stream

end Json

end ValuePattern
