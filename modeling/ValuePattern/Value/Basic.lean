import ValuePattern.Double.Basic
import ValuePattern.Entries
/-!
Dynamic values. A missing value is the absence of one and differs from null, which is a value that
says nothing. Objects keep their fields in order. A function stands in a value as a reference, and
what it does is told by a host; two references are the same function exactly if they are equal.
-/
namespace ValuePattern

/-- Refers to a function. -/
abbrev FunctionRef := Nat

/-- A dynamic value. -/
inductive Value where
  | missing
  | null
  | boolean (truth : Bool)
  | number (x : Double)
  | string (text : String)
  | array (items : List Value)
  | object (fields : List (String × Value))
  | function (reference : FunctionRef)
  deriving Repr, Inhabited

/-- The kinds of values. -/
inductive Kind where
  | missing | null | boolean | number | string | array | object | function
  deriving DecidableEq, Repr

/-- The name of a kind, as messages give it. -/
def Kind.name : Kind → String
  | missing => "missing"
  | null => "null"
  | boolean => "boolean"
  | number => "number"
  | string => "string"
  | array => "array"
  | object => "object"
  | function => "function"

namespace Value

/-- The kind of a value. -/
def kind : Value → Kind
  | missing => .missing
  | null => .null
  | boolean _ => .boolean
  | number _ => .number
  | string _ => .string
  | array _ => .array
  | object _ => .object
  | function _ => .function

/-- The function that a value refers to, if it is one. -/
def function? : Value → Option FunctionRef
  | function reference => some reference
  | _ => none

mutual

/-- Equality of values: objects agree with their order, numbers as numbers, functions as
references. -/
def equal : Value → Value → Bool
  | missing, missing | null, null => true
  | boolean a, boolean b => a == b
  | number x, number y => x == y
  | string s, string t => s == t
  | array xs, array ys => equalItems xs ys
  | object xs, object ys => equalFields xs ys
  | function f, function g => f == g
  | _, _ => false

def equalItems : List Value → List Value → Bool
  | [], [] => true
  | x :: xs, y :: ys => equal x y && equalItems xs ys
  | _, _ => false

def equalFields : List (String × Value) → List (String × Value) → Bool
  | [], [] => true
  | (k, x) :: xs, (l, y) :: ys => k == l && equal x y && equalFields xs ys
  | _, _ => false

end

instance : BEq Value := ⟨equal⟩

end Value

/-- What every function does. -/
abbrev Host := FunctionRef → Value → Value

end ValuePattern
