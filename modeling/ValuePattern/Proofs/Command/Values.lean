import Mathlib.Data.List.Forall2
import ValuePattern.Command.Run
import ValuePattern.Proofs.Node.Spared
import ValuePattern.Proofs.Value.OfJson
/-!
Runs on the values of a stream. Whatever a decoder gives, its values become plain ones, so matching
answers each of them. Where every value is answered, a run prints one line for each, and only the end
of the stream and the answers tell whether it fails.
-/
namespace ValuePattern

/-- What is there to be read: the standard input, unless a file is named and opens. -/
inductive Surroundings.Gives (s : Surroundings) : Option String → Input → Prop
  | stdin : Gives s none s.stdin
  | file {path input} : s.openFile path = .content input → Gives s (some path) input

namespace Command

/-- What a run says about the cause that ended a stream. -/
def complaint : Option String → String
  | none => ""
  | some cause => "error: " ++ ("Invalid JSON input: " ++ cause) ++ "\n"

section Sources

variable {s : Surroundings} {file? : Option String} {input : Input}

theorem answerInput_of_gives (h : s.Gives file? input) (answer : Value → Except String Answer) :
    answerInput s file? answer = answerStream answer (s.decode input) := by
  cases h with
  | stdin => rfl
  | file hopened => simp only [answerInput, Surroundings.readValues, hopened]

theorem answerInput_of_refused {path why : String} (h : s.openFile path = .refused why)
    (answer : Value → Except String Answer) :
    answerInput s (some path) answer =
      ⟨1, "", "error: " ++ ("Failed to read " ++ path ++ ": " ++ why) ++ "\n"⟩ := by
  simp only [answerInput, Surroundings.readValues, h]
  rfl

theorem gives_or_refused (s : Surroundings) (file? : Option String) :
    (∃ input, s.Gives file? input) ∨
      ∃ path why, file? = some path ∧ s.openFile path = .refused why := by
  cases file? with
  | none => exact .inl ⟨_, .stdin⟩
  | some path =>
    cases hopened : s.openFile path with
    | content input => exact .inl ⟨input, .file hopened⟩
    | refused why => exact .inr ⟨path, why, rfl, hopened⟩

end Sources

section Answers

variable {answer : Value → Except String Answer} {jsons : List Json} {answers : List Answer}

/-- Matching answers a plain value. -/
theorem exists_accepts_of_plain (p : Pattern) {v : Value} (h : v.Plain) :
    ∃ b, p.accepts v = .ok b := by
  rw [Pattern.accepts]
  split
  · exact ⟨true, rfl⟩
  · rename_i root _
    exact root.exists_accepts_eq_ok h.at?_ne_function

theorem exists_forall₂ {α β : Type} {R : α → β → Prop} {as : List α} (h : ∀ a ∈ as, ∃ b, R a b) :
    ∃ bs, List.Forall₂ R as bs := by
  induction as with
  | nil => exact ⟨[], .nil⟩
  | cons a as ih =>
    obtain ⟨⟨b, hb⟩, has⟩ := List.forall_mem_cons.mp h
    obtain ⟨bs, hbs⟩ := ih has
    exact ⟨b :: bs, .cons hb hbs⟩

theorem answerAll_eq (h : List.Forall₂ (fun json a => answer (.ofJson json) = .ok a) jsons answers) :
    answerAll answer jsons = (answers, none) := by
  induction h with
  | nil => rfl
  | cons hanswer _ ih => simp only [answerAll, hanswer, ih]

/-- Where every value is answered, all lines are printed, and a bad stream is complained about. -/
theorem answerStream_eq {stream : Json.Stream}
    (h : List.Forall₂ (fun json a => answer (.ofJson json) = .ok a) stream.values answers) :
    answerStream answer stream =
      ⟨if stream.cause?.isNone && answers.all (·.success) then 0 else 1,
        String.join (answers.map (·.line ++ "\n")), complaint stream.cause?⟩ := by
  have hlines : Outcome.ofLines (answers.map (·.line)) =
      String.join (answers.map (·.line ++ "\n")) := by
    rw [Outcome.ofLines, List.map_map]
    rfl
  rw [answerStream, answerAll_eq h]
  cases stream.cause? with
  | none => rw [← hlines]; rfl
  | some cause => rw [← hlines]; rfl

end Answers

end Command

end ValuePattern
