import ValuePattern.Text.Blank
/-!
Where an unquoted token ends. A stop is a set of characters; reading a token runs up to, and not
into, the first character of its stop.
-/
namespace ValuePattern

/-- A set of characters that ends an unquoted token. -/
inductive Stop where
  /-- any blank -/
  | blank
  /-- one character only -/
  | only (c : Char)
  /-- any of some characters, and any blank too where that is asked for -/
  | among (chars : List Char) (blanks : Bool)
  deriving DecidableEq, Repr

namespace Stop

/-- An element of an array ends at a blank, a comma or the closing bracket. -/
abbrev element : Stop := .among [',', ']'] true

/-- A field value ends at a comma or the closing brace, and may hold blanks. -/
abbrev fieldValue : Stop := .among [',', '}'] false

/-- A bare key ends at a blank, a colon or the closing brace. -/
abbrev key : Stop := .among [':', '}'] true

/-- A stop holds a character when a token ends before it. -/
def holds : Stop → Char → Bool
  | blank, c => Text.isBlank c
  | only d, c => c == d
  | among chars blanks, c => (blanks && Text.isBlank c) || chars.contains c

theorem holds_among_iff {chars : List Char} {blanks : Bool} {c : Char} :
    (among chars blanks).holds c = true ↔ blanks = true ∧ Text.isBlank c = true ∨ c ∈ chars := by
  simp [holds]

/-- The index of the first character that a stop holds. -/
def find? (s : Stop) (text : List Char) : Option Nat := text.findIdx? s.holds

/-- The characters before the first that a stop holds. -/
def token (s : Stop) (text : List Char) : List Char := text.takeWhile fun c => !s.holds c

/-- What is left from the first character on that a stop holds. -/
def after (s : Stop) (text : List Char) : List Char := text.dropWhile fun c => !s.holds c

@[simp] theorem token_append_after (s : Stop) (text : List Char) :
    s.token text ++ s.after text = text := List.takeWhile_append_dropWhile

theorem after_length_le (s : Stop) (text : List Char) :
    (s.after text).length ≤ text.length := (List.dropWhile_sublist _).length_le

end Stop

end ValuePattern
