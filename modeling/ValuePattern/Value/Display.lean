import ValuePattern.Decimal.Positional
import ValuePattern.Text.Quoted
import ValuePattern.Value.Basic
/-!
The text of a value: numbers by place, strings and names of fields in quotes with escapes, items and
fields separated by a comma and a blank. Functions have no text of their own and look all alike.
-/
namespace ValuePattern.Value

mutual

/-- The text of a value. -/
def display : Value → String
  | missing => "missing"
  | null => "null"
  | boolean truth => if truth then "true" else "false"
  | number x => x.text "inf"
  | string text => Text.quoted text
  | array items => "[" ++ ", ".intercalate (displayItems items) ++ "]"
  | object fields => "\x7b" ++ ", ".intercalate (displayFields fields) ++ "\x7d"
  | function _ => "<function>"

def displayItems : List Value → List String
  | [] => []
  | item :: items => display item :: displayItems items

def displayFields : List (String × Value) → List String
  | [] => []
  | (name, value) :: fields => (Text.quoted name ++ ": " ++ display value) :: displayFields fields

end

end ValuePattern.Value
