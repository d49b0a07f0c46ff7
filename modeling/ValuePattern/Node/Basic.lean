import ValuePattern.Double.Basic
import ValuePattern.Span
/-!
The tree of a pattern. Every node carries a mark: a span of the text in a tree that was read, nothing
in a bare shape. Marks play no part in what a pattern means or how it is printed, so moving a tree in
its text and forgetting where it stood are the same operation, `map`, at two functions.
-/
namespace ValuePattern

/-- A pattern tree with marks of type `α`. An array or object is open when it ends in a rest marker,
which lets a value have more than is named. -/
inductive Node (α : Type) where
  | array (mark : α) (elements : List (Node α)) (isOpen : Bool)
  | object (mark : α) (pairs : List (Node α × Node α)) (isOpen : Bool)
  | number (mark : α) (x : Double)
  | string (mark : α) (text : String)
  | boolean (mark : α) (truth : Bool)
  | missing (mark : α)
  | null (mark : α)
  | rest (mark : α)
  deriving Repr

namespace Node

/-- The mark of the root. -/
def mark {α : Type} : Node α → α
  | array m _ _ | object m _ _ | number m _ | string m _ | boolean m _ | missing m | null m
  | rest m => m

/-- The name of a node's kind. -/
def kindName {α : Type} : Node α → String
  | array .. => "array"
  | object .. => "object"
  | number .. => "number"
  | string .. => "string"
  | boolean .. => "boolean"
  | missing _ => "missing"
  | null _ => "null"
  | rest _ => "rest"

def isRest {α : Type} : Node α → Bool
  | rest _ => true
  | _ => false

/-- The span of a rest marker; none for any other node. -/
def restSpan? : Node Span → Option Span
  | rest s => some s
  | _ => none

/-- The name of the field that a key stands for; a key that is no string stands for the empty
name. -/
def keyName {α : Type} : Node α → String
  | string _ text => text
  | _ => ""

/-- Whether a node is one unquoted character. A quoted string spans at least its two quotes, so a
string whose span has length one was written without them. -/
def isBare (c : Char) : Node Span → Bool
  | string s text => s.length == 1 && text == String.singleton c
  | _ => false

mutual

/-- The same tree with other marks. -/
def map {α β : Type} (f : α → β) : Node α → Node β
  | array m elements isOpen => .array (f m) (mapElements f elements) isOpen
  | object m pairs isOpen => .object (f m) (mapPairs f pairs) isOpen
  | number m x => .number (f m) x
  | string m text => .string (f m) text
  | boolean m truth => .boolean (f m) truth
  | missing m => .missing (f m)
  | null m => .null (f m)
  | rest m => .rest (f m)

def mapElements {α β : Type} (f : α → β) : List (Node α) → List (Node β)
  | [] => []
  | node :: nodes => map f node :: mapElements f nodes

def mapPairs {α β : Type} (f : α → β) : List (Node α × Node α) → List (Node β × Node β)
  | [] => []
  | (key, value) :: pairs => (map f key, map f value) :: mapPairs f pairs

end

/-- The tree as it stands once `n` characters are put before its text. -/
def shift (n : Nat) (node : Node Span) : Node Span := node.map (Span.shift n)

/-- The tree without its spans. -/
def erase {α : Type} (node : Node α) : Node Unit := node.map fun _ => ()

mutual

/-- Whether two trees agree, with marks and numbers compared as their types compare. -/
def equal {α : Type} [BEq α] : Node α → Node α → Bool
  | array m xs a, array n ys b => m == n && equalElements xs ys && a == b
  | object m ps a, object n qs b => m == n && equalPairs ps qs && a == b
  | number m x, number n y => m == n && x == y
  | string m s, string n t => m == n && s == t
  | boolean m a, boolean n b => m == n && a == b
  | missing m, missing n | null m, null n | rest m, rest n => m == n
  | _, _ => false

def equalElements {α : Type} [BEq α] : List (Node α) → List (Node α) → Bool
  | [], [] => true
  | x :: xs, y :: ys => equal x y && equalElements xs ys
  | _, _ => false

def equalPairs {α : Type} [BEq α] : List (Node α × Node α) → List (Node α × Node α) → Bool
  | [], [] => true
  | (k, v) :: ps, (l, w) :: qs => equal k l && equal v w && equalPairs ps qs
  | _, _ => false

end

instance {α : Type} [BEq α] : BEq (Node α) := ⟨equal⟩

/-- The same node with another mark at its root. -/
def withMark {α : Type} (m : α) : Node α → Node α
  | array _ elements isOpen => .array m elements isOpen
  | object _ pairs isOpen => .object m pairs isOpen
  | number _ x => .number m x
  | string _ text => .string m text
  | boolean _ truth => .boolean m truth
  | missing _ => .missing m
  | null _ => .null m
  | rest _ => .rest m

/-- Whether two trees agree when the marks of their roots are left out of account. -/
def equalBelow {α : Type} [BEq α] (a b : Node α) : Bool := a.withMark b.mark == b

@[simp] theorem mark_withMark {α : Type} (m : α) (a : Node α) : (a.withMark m).mark = m := by
  cases a <;> rfl

@[simp] theorem mark_map {α β : Type} (f : α → β) (a : Node α) : (a.map f).mark = f a.mark := by
  cases a <;> simp [map, mark]

@[simp] theorem isRest_map {α β : Type} (f : α → β) (a : Node α) :
    (a.map f).isRest = a.isRest := by
  cases a <;> simp [map, isRest]

@[simp] theorem keyName_map {α β : Type} (f : α → β) (a : Node α) :
    (a.map f).keyName = a.keyName := by
  cases a <;> simp [map, keyName]

end Node

end ValuePattern
