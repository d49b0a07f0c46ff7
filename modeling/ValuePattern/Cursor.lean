import ValuePattern.Node.Reader
import ValuePattern.SyntaxError
/-!
A cursor over a whole text. It can be set back, which a place cannot, and readings are run from where
it stands; a failed reading moves it too, to the place where the failure was noticed.
-/
namespace ValuePattern

/-- A position in a text. -/
structure Cursor where
  text : List Char
  pos : Nat
  deriving DecidableEq, Repr

namespace Cursor

def first (text : List Char) : Cursor := ⟨text, 0⟩

/-- The position at the end of the text. -/
def stop (c : Cursor) : Nat := c.text.length

def atEnd (c : Cursor) : Bool := c.stop ≤ c.pos

/-- Sets the position, at most to the end of the text. -/
def setPos (c : Cursor) (n : Nat) : Cursor := ⟨c.text, min n c.stop⟩

/-- Moves ahead, at most to the end of the text. The sum is one of natural numbers; positions that are
held in 64 bits agree with it as long as `c.pos + n < 2 ^ 64`, and so in every text that fits a memory
when `n` is no more than is ahead. -/
def advance (c : Cursor) (n : Nat) : Cursor := c.setPos (c.pos + n)

/-- The text from the position on. -/
def ahead (c : Cursor) : List Char := c.text.drop c.pos

def charAt? (c : Cursor) (n : Nat) : Option Char := c.text[n]?

def peek? (c : Cursor) : Option Char := c.charAt? c.pos

/-- Whether the text goes on with the given characters. -/
def startsWith (c : Cursor) (start : List Char) : Bool := start.isPrefixOf c.ahead

/-- The span of the character at a position; at the end and behind it the empty one there. -/
def spanAt (c : Cursor) (n : Nat) : Span := ⟨n, max (min (n + 1) c.stop) n⟩

/-- The place where the cursor stands. -/
def place (c : Cursor) : Place := ⟨c.pos, c.ahead⟩

def skipSpace (c : Cursor) : Cursor := c.setPos c.place.skipSpace.pos

/-- A fault of the text as an error. -/
def error (c : Cursor) (fault : Fault) : SyntaxError := .ofFault (String.ofList c.text) fault

/-- Runs a reading from where the cursor stands, and moves it to the place reached. -/
def run {α : Type} (c : Cursor) (reading : (p : Place) → Reading p α) :
    Except SyntaxError α × Cursor :=
  let r := reading c.place
  (r.result.mapError c.error, ⟨c.text, r.place.pos⟩)

end Cursor

end ValuePattern
