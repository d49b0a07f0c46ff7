import ValuePattern.Node.Display
import ValuePattern.Node.Reader
import ValuePattern.SyntaxError
/-!
Patterns: a text and the tree read from it. A text of blanks alone has no tree and is the pattern
that every value matches; any other text must hold exactly one value.
-/
namespace ValuePattern

/-- A pattern that was read from a text. -/
structure Pattern where
  source : String
  root : Option (Node Span)
  deriving Repr

namespace Pattern

/-- The hint for a text that goes on behind its pattern. -/
def singleExpressionHelp : String := "pattern only supports a single expression"

/-- Reads the tree of a pattern, which is none for blanks alone. -/
def readRoot (text : List Char) : Except (Fault × Option String) (Option (Node Span)) :=
  let p := (Place.first text).skipSpace
  if p.ahead.isEmpty then .ok none
  else
    let reading := p.value .blank
    match reading.result with
    | .error fault => .error (fault, none)
    | .ok root =>
      let q := reading.place.skipSpace
      if q.ahead.isEmpty then .ok (some root)
      else .error (⟨.trailingContent, ⟨q.pos, q.stop⟩⟩, some singleExpressionHelp)

/-- Reads a pattern. -/
def compile (source : String) : Except SyntaxError Pattern :=
  match readRoot source.toList with
  | .ok root => .ok ⟨source, root⟩
  | .error (fault, help) => .error { SyntaxError.ofFault source fault with help := help }

/-- The normal form of a pattern. -/
def display (p : Pattern) : String :=
  match p.root with
  | none => "<any>"
  | some root => root.display

/-- Whether two patterns have the same text and trees that agree, spans included. -/
def equal (p q : Pattern) : Bool := p.source == q.source && p.root == q.root

instance : BEq Pattern := ⟨equal⟩

end Pattern

end ValuePattern
