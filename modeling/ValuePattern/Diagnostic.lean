import ValuePattern.SyntaxError
import ValuePattern.Text.Blank
/-!
Syntax errors for readers. The blamed text is shown with dashes and the message below it. A hint
comes first, under the text before the blamed span, with a caret below the last character there that
is no blank.
-/
namespace ValuePattern.Diagnostic

/-- How the line of the hint and the line of the message are dressed up for a terminal. -/
structure Style where
  hint : String → String
  message : String → String

/-- Without any dress. -/
def Style.plain : Style := ⟨id, id⟩

/-- The most dashes that are drawn below a blamed text. -/
def maxDashes : Nat := 3

/-- Where the last character that is no blank stands in the last line of a text; the first column
if there is none. -/
def caretColumn (text : List Char) : Nat :=
  let line := (text.reverse.takeWhile (· != '\n')).reverse
  (Text.trimEnd line).length - 1

/-- The text before the blamed span. -/
def consumed (e : SyntaxError) : List Char :=
  Span.slice ⟨min e.patternSpan.start e.fault.span.start, e.fault.span.start⟩ e.source.toList

/-- The hint and the text that it points into, each on lines of its own. -/
def hint (s : Style) (e : SyntaxError) : String :=
  match e.help with
  | none => ""
  | some help =>
    String.ofList (consumed e) ++ "\n" ++ String.ofList (List.replicate (caretColumn (consumed e)) ' ')
      ++ s.hint ("^ help: " ++ help) ++ "\n"

/-- The rendering of a syntax error, without a line end. -/
def render (s : Style) (e : SyntaxError) : String :=
  let dashes := max 1 (min e.fault.span.length maxDashes)
  hint s e ++ String.ofList (e.fault.span.slice e.source.toList) ++ "\n" ++
    s.message (String.ofList (List.replicate dashes '-') ++ " " ++ e.message)

end ValuePattern.Diagnostic
