import ValuePattern.Fault
/-!
A fault together with the text that it lies in, which is all that a rendering of it needs.
-/
namespace ValuePattern

/-- A fault in a pattern, the whole text, the span of the pattern in it, and a hint if there is
one. -/
structure SyntaxError where
  source : String
  patternSpan : Span
  fault : Fault
  help : Option String
  deriving DecidableEq, Repr

namespace SyntaxError

/-- A fault in a text that is all pattern. -/
def ofFault (source : String) (fault : Fault) : SyntaxError :=
  ⟨source, ⟨0, source.length⟩, fault, none⟩

/-- What is wrong, in words. -/
def message (e : SyntaxError) : String := e.fault.cause.message

end SyntaxError

end ValuePattern
