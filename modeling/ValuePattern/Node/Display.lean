import ValuePattern.Decimal.Positional
import ValuePattern.Node.Basic
/-!
The normal form of a pattern tree: one blank after each comma and colon and nowhere else, keys and
strings in quotes, numbers by place. Strings have no escapes, so one that holds a double quote is
put in single quotes.
-/
namespace ValuePattern.Node

/-- A string in quotes: single ones if it holds a double quote. -/
def quote (text : String) : String :=
  if text.toList.contains '"' then "'" ++ text ++ "'" else "\"" ++ text ++ "\""

/-- The items of an array or object, with a rest marker behind them if it is open. -/
def listed (items : List String) (isOpen : Bool) : String :=
  ", ".intercalate (items ++ if isOpen then ["..."] else [])

mutual

/-- The normal form of a tree. -/
def display {α : Type} : Node α → String
  | array _ elements isOpen => "[" ++ listed (displayElements elements) isOpen ++ "]"
  | object _ pairs isOpen => "\x7b" ++ listed (displayPairs pairs) isOpen ++ "\x7d"
  | number _ x => x.text "Infinity"
  | string _ text => quote text
  | boolean _ truth => if truth then "true" else "false"
  | missing _ => "missing"
  | null _ => "null"
  | rest _ => "..."

def displayElements {α : Type} : List (Node α) → List String
  | [] => []
  | node :: nodes => display node :: displayElements nodes

def displayPairs {α : Type} : List (Node α × Node α) → List String
  | [] => []
  | (key, value) :: pairs => (display key ++ ": " ++ display value) :: displayPairs pairs

end

end ValuePattern.Node
