import ValuePattern.Command.Surroundings
import ValuePattern.Table
import ValuePattern.Value.Display
import ValuePattern.Value.Registry
/-!
Running the command line. Patterns and arms are read before any input is opened. Values are answered
one by one, each by a line, so what was printed before a bad value stays. Diagnostics are plain, as
they are away from a terminal.
-/
namespace ValuePattern

/-- What a run leaves behind. -/
structure Outcome where
  code : Nat
  stdout : String
  stderr : String
  deriving DecidableEq, Repr

namespace Outcome

/-- Lines as they are printed. -/
def ofLines (lines : List String) : String := String.join (lines.map (· ++ "\n"))

/-- A run that ends with an error, after some lines. -/
def failed (lines : List String) (why : String) : Outcome :=
  ⟨1, ofLines lines, "error: " ++ why ++ "\n"⟩

/-- A run that ends at a malformed pattern. -/
def malformed (e : SyntaxError) : Outcome := ⟨2, "", Diagnostic.render .plain e ++ "\n"⟩

end Outcome

/-- The answer to a value: a line, and whether the value is as it was asked to be. -/
structure Answer where
  line : String
  success : Bool
  deriving DecidableEq, Repr

namespace Command

/-- The answers to values up to the first that cannot be answered, and why it cannot. -/
def answerAll (answer : Value → Except String Answer) : List Json → List Answer × Option String
  | [] => ([], none)
  | json :: jsons =>
    match answer (.ofJson json) with
    | .error why => ([], some why)
    | .ok given =>
      let (answers, stopped?) := answerAll answer jsons
      (given :: answers, stopped?)

/-- Answers the values of a stream. A run succeeds if it comes to the end of the stream and all of the
answers are successes. -/
def answerStream (answer : Value → Except String Answer) (s : Json.Stream) : Outcome :=
  let (answers, stopped?) := answerAll answer s.values
  let lines := answers.map (·.line)
  match stopped?.or (s.cause?.map ("Invalid JSON input: " ++ ·)) with
  | some why => .failed lines why
  | none => ⟨if answers.all (·.success) then 0 else 1, Outcome.ofLines lines, ""⟩

/-- Answers the values of a file or of the standard input. -/
def answerInput (s : Surroundings) (file? : Option String)
    (answer : Value → Except String Answer) : Outcome :=
  match s.readValues file? with
  | .error why => .failed [] why
  | .ok values => answerStream answer values

/-- Whether a value matches, as an answer. -/
def checkValue (p : Pattern) (v : Value) : Except String Answer :=
  match p.accepts v with
  | .ok matched => .ok ⟨if matched then "true" else "false", matched⟩
  | .error u => .error u.message

/-- The pattern and the label of an arm, which the last equals sign separates. -/
def splitArm? (arm : String) : Option (String × String) :=
  let backwards := arm.toList.reverse
  let label := (backwards.takeWhile (· != '=')).reverse
  match backwards.dropWhile (· != '=') with
  | [] => none
  | _ :: pattern => some (String.ofList pattern.reverse, String.ofList label)

/-- Puts arms into a table, each handled by a function that gives its label. -/
def addArms : Table → Registry → List String → Except Outcome (Table × Registry)
  | table, registry, [] => .ok (table, registry)
  | table, registry, arm :: arms =>
    match splitArm? arm with
    | none => .error (.failed [] ("arm " ++ Text.quoted arm ++ " must be PATTERN=LABEL"))
    | some (pattern, label) =>
      match Pattern.compile pattern with
      | .error e => .error (.malformed e)
      | .ok _ =>
        let (reference, registry) := registry.add fun _ => .string label
        addArms (table.insert pattern (.function reference)) registry arms

/-- The label of the first arm that matches a value, as an answer; a dash if none does. -/
def dispatchValue (table : Table) (registry : Registry) (v : Value) : Except String Answer :=
  match (table.dispatch registry.host v).result with
  | .ok (some (.string label)) => .ok ⟨label, true⟩
  | .ok (some other) => .ok ⟨other.display, true⟩
  | .ok none => .ok ⟨"-", true⟩
  | .error failure => .error failure.message

/-- Runs a command. -/
def run (s : Surroundings) : Command → Outcome
  | explain pattern =>
    match Pattern.compile pattern with
    | .error e => .malformed e
    | .ok p => ⟨0, p.display ++ "\n", ""⟩
  | check pattern file? =>
    match Pattern.compile pattern with
    | .error e => .malformed e
    | .ok p => answerInput s file? (checkValue p)
  | dispatch arms file? =>
    match addArms .empty .empty arms with
    | .error outcome => outcome
    | .ok (table, registry) => answerInput s file? (dispatchValue table registry)

end Command

end ValuePattern
