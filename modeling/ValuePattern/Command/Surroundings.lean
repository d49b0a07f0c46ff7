import ValuePattern.Json
/-!
What a run asks for and what it takes from outside. The arguments are read by a package, from which a
command comes; a file is opened by the system, and JSON is decoded by another package.
-/
namespace ValuePattern

/-- What the command line asks for. Values come from a file, or from the standard input if none is
named. -/
inductive Command where
  /-- test each value of the input against a pattern -/
  | check (pattern : String) (file? : Option String)
  /-- print the normal form of a pattern -/
  | explain (pattern : String)
  /-- print for each value of the input the label of the first arm that matches it -/
  | dispatch (arms : List String) (file? : Option String)
  deriving DecidableEq, Repr

/-- What comes of opening a file. -/
inductive Opened where
  | content (input : Input)
  /-- it cannot be opened, and why, in words -/
  | refused (why : String)
  deriving DecidableEq, Repr

/-- What a run takes from outside: how files open, the standard input, and a decoder of JSON. -/
structure Surroundings where
  openFile : String → Opened
  stdin : Input
  decode : Json.Decoder

namespace Surroundings

/-- Decodes the values of a file or of the standard input, or says why they cannot be read. -/
def readValues (s : Surroundings) : Option String → Except String Json.Stream
  | none => .ok (s.decode s.stdin)
  | some path =>
    match s.openFile path with
    | .content input => .ok (s.decode input)
    | .refused why => .error ("Failed to read " ++ path ++ ": " ++ why)

end Surroundings

end ValuePattern
