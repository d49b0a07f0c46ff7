import ValuePattern.Diagnostic
import ValuePattern.Event
import ValuePattern.Node.Match
import ValuePattern.Text.Quoted
/-!
Tables of arms: pattern texts, each with the value that handles what it matches, tried in order.
Dispatching first checks that every handler is a function, then reads and tries one pattern after
another, and runs the handler of the first that matches. It accounts for what it did: the functions
that were called, each with its argument, and the events in order.
-/
namespace ValuePattern

/-- Whether a pattern matches a value. -/
def Pattern.accepts (p : Pattern) (v : Value) : Except Unsupported Bool :=
  match p.root with
  | none => .ok true
  | some root => root.accepts v

/-- Why dispatching came to no answer. -/
inductive Failure where
  /-- a pattern that had to be tried is not well formed -/
  | malformed (e : SyntaxError)
  /-- a pattern met a value that none describes -/
  | unsupported (u : Unsupported)
  /-- an arm is handled by something that is no function -/
  | notCallable (pattern : String) (kind : Kind)
  deriving DecidableEq, Repr

/-- What is wrong, in words. -/
def Failure.message : Failure → String
  | malformed e => Diagnostic.render .plain e
  | unsupported u => u.message
  | notCallable pattern kind =>
    "expected a function for pattern " ++ Text.quoted pattern ++ ", given " ++ kind.name

/-- Pattern texts and their handlers, in the order in which they are tried. -/
structure Table where
  arms : List (String × Value)
  deriving Repr

/-- What dispatching came to: the handler's answer, none if no arm matched, or a failure; the calls
that were made; and the events. -/
structure Dispatch where
  result : Except Failure (Option Value)
  calls : List (FunctionRef × Value)
  events : List Event
  deriving Repr

namespace Table

def empty : Table := ⟨[]⟩

/-- Puts a handler behind a pattern text, in place of the one that was there. -/
def insert (t : Table) (pattern : String) (handler : Value) : Table :=
  ⟨(Entries.insert pattern handler t.arms).2⟩

def ofPairs (pairs : List (String × Value)) : Table := ⟨Entries.ofPairs pairs⟩

def size (t : Table) : Nat := t.arms.length

/-- Equality of the arms with their order. -/
def equal (s t : Table) : Bool := Value.equalFields s.arms t.arms

instance : BEq Table := ⟨equal⟩

/-- The arms with their handlers as functions, or the first whose handler is none. -/
def callables : List (String × Value) → Except Failure (List (String × FunctionRef))
  | [] => .ok []
  | (pattern, handler) :: arms =>
    match handler with
    | .function f => (callables arms).map ((pattern, f) :: ·)
    | _ => .error (.notCallable pattern handler.kind)

/-- Tries arms in order; `size` is how many the whole table has. -/
def tryArms (host : Host) (v : Value) (size : Nat) : List (String × FunctionRef) → Dispatch
  | [] => ⟨.ok none, [], [.noneMatched size]⟩
  | (source, f) :: arms =>
    match Pattern.compile source with
    | .error e => ⟨.error (.malformed e), [], []⟩
    | .ok pattern =>
      match pattern.accepts v with
      | .error u => ⟨.error (.unsupported u), [], [pattern.event, .trying source]⟩
      | .ok true =>
        ⟨.ok (some (host f v)), [(f, v)], [pattern.event, .trying source, .matched source]⟩
      | .ok false =>
        let later := tryArms host v size arms
        ⟨later.result, later.calls, pattern.event :: .trying source :: later.events⟩

/-- Runs the handler of the first arm whose pattern matches a value. -/
def dispatch (host : Host) (t : Table) (v : Value) : Dispatch :=
  match callables t.arms with
  | .error failure => ⟨.error failure, [], []⟩
  | .ok arms => tryArms host v t.size arms

end Table

end ValuePattern
