import ValuePattern.Node.Basic
import ValuePattern.Value.Basic
/-!
Whether a value has the form that a pattern tree describes. Checks are made in a fixed order, the
number of entries before the entries and those as the pattern lists them, and the first that fails
decides. No tree but the rest marker describes a function, so meeting one elsewhere is neither a match
nor a mismatch but an error.
-/
namespace ValuePattern

/-- A value of a kind that no pattern describes. -/
structure Unsupported where
  kind : Kind
  deriving DecidableEq, Repr

/-- What is wrong, in words. -/
def Unsupported.message (u : Unsupported) : String :=
  "type " ++ u.kind.name ++ " is not supported"

namespace Node

/-- A value may have more entries than a pattern declares only where the pattern is open. -/
def sizeFits (actual declared : Nat) (isOpen : Bool) : Bool :=
  actual == declared || (isOpen && declared < actual)

mutual

/-- Whether a value has the form of a tree. -/
def accepts {α : Type} : Node α → Value → Except Unsupported Bool
  | rest _, _ => .ok true
  | _, .function _ => .error ⟨.function⟩
  | boolean _ a, .boolean b => .ok (a == b)
  | number _ x, .number y => .ok (y == x)
  | string _ s, .string t => .ok (s == t)
  | missing _, .missing => .ok true
  | null _, .null => .ok true
  | array _ elements isOpen, .array items =>
    if sizeFits items.length elements.length isOpen then acceptsItems elements items
    else .ok false
  | object _ pairs isOpen, .object fields =>
    if sizeFits fields.length pairs.length isOpen then acceptsFields pairs fields else .ok false
  | _, _ => .ok false

/-- Whether items have the forms of elements, as far as both go. -/
def acceptsItems {α : Type} : List (Node α) → List Value → Except Unsupported Bool
  | element :: elements, item :: items =>
    match accepts element item with
    | .ok true => acceptsItems elements items
    | stopped => stopped
  | _, _ => .ok true

/-- Whether every named field is there and has its form. -/
def acceptsFields {α : Type} :
    List (Node α × Node α) → List (String × Value) → Except Unsupported Bool
  | [], _ => .ok true
  | (key, node) :: pairs, fields =>
    match Entries.get? key.keyName fields with
    | none => .ok false
    | some value =>
      match accepts node value with
      | .ok true => acceptsFields pairs fields
      | stopped => stopped

end

end Node

end ValuePattern
