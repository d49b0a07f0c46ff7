import ValuePattern.Text.Extending
import ValuePattern.Text.Unprintable
/-!
Texts in double quotes with escapes. A backslash precedes the quote and the backslash itself, four
controls have letters, and every other character that would not show, or would join its neighbour, is
given by its number.
-/
namespace ValuePattern.Text

/-- A character by its number in hexadecimal. -/
def numbered (c : Char) : List Char := ['\\', 'u', '{'] ++ Nat.toDigits 16 c.toNat ++ ['}']

/-- A character as it stands between the quotes. -/
def escaped (c : Char) : List Char :=
  if c == '"' || c == '\\' then ['\\', c]
  else if c == '\n' then ['\\', 'n']
  else if c == '\r' then ['\\', 'r']
  else if c == '\t' then ['\\', 't']
  else if c == '\x00' then ['\\', '0']
  else if isExtending c || isUnprintable c then numbered c
  else [c]

/-- A text in double quotes. -/
def quoted (text : String) : String :=
  String.ofList ('"' :: text.toList.flatMap escaped ++ ['"'])

end ValuePattern.Text
