import ValuePattern.Pattern
/-!
Events: what reading patterns and dispatching report as they go, in the order in which it happens.
-/
namespace ValuePattern

/-- How much an event matters. -/
inductive Level where
  | trace | debug
  deriving DecidableEq, Repr

/-- Something that happened to a pattern, named by its text. -/
inductive Event where
  /-- a pattern without a tree was read -/
  | compiledAny (pattern : String)
  /-- a pattern with a tree was read -/
  | compiled (pattern : String) (kindName : String)
  /-- the arm of a pattern is about to be tried -/
  | trying (pattern : String)
  /-- the arm of a pattern was chosen -/
  | matched (pattern : String)
  /-- all arms were tried, and none was chosen -/
  | noneMatched (arms : Nat)
  deriving DecidableEq, Repr

namespace Event

def level : Event → Level
  | trying _ => .trace
  | _ => .debug

/-- The wording of an event. -/
def message : Event → String
  | compiledAny _ => "compiled always-match pattern"
  | compiled .. => "compiled pattern"
  | trying _ => "trying arm"
  | matched _ => "arm matched"
  | noneMatched _ => "no arm matched"

end Event

/-- The event of having read a pattern. -/
def Pattern.event (p : Pattern) : Event :=
  match p.root with
  | none => .compiledAny p.source
  | some root => .compiled p.source root.kindName

end ValuePattern
