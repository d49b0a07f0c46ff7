import ValuePattern.Proofs.Node.Change
/-!
Looser patterns. A pattern is loosened where a part of it gives way to a rest marker, or where an array
or object is opened. However often that is done, and at whatever depth, all that matched before still
matches, and no function that was not looked at before is looked at now.
-/
namespace ValuePattern.Node

variable {α : Type} {n n' : Node α}

/-- A tree gives way to a rest marker, or an array or object is opened. -/
inductive Loosens : Node α → Node α → Prop
  | rest {n : Node α} {mark : α} : Loosens n (.rest mark)
  | openArray {mark : α} {elements : List (Node α)} :
      Loosens (.array mark elements false) (.array mark elements true)
  | openObject {mark : α} {pairs : List (Node α × Node α)} :
      Loosens (.object mark pairs false) (.object mark pairs true)

theorem covers_rest (n : Node α) (mark : α) : (rest mark).Covers n := fun _ _ => rfl

theorem Loosens.covers (h : Loosens n n') : n'.Covers n := by
  cases h with
  | rest => exact covers_rest n _
  | openArray => exact covers_array rfl (fun _ => rfl) fun i x hx => ⟨x, hx, .refl x⟩
  | openObject => exact covers_object rfl (fun _ => rfl) fun p hp => ⟨p, hp, rfl, .refl p.2⟩

/-- A pattern that is loosened, any number of times and at any depth, matches all that it matched
before; and of values without functions it turns away none that it did not turn away before. -/
theorem accepts_of_loosened (n n' : Node α) (h : Changed Loosens n n') (v : Value) :
    (n.accepts v = .ok true → n'.accepts v = .ok true) ∧
      (v.FunctionFree → n'.accepts v = .ok false → n.accepts v = .ok false) := by
  have hcovers : n'.Covers n := covers_of_changed Loosens.covers h
  exact ⟨hcovers v, hcovers.accepts_eq_false⟩

/-- An array inside an object is opened, and then its element gives way to a rest marker. -/
theorem accepts_of_loosened_twice :
    let pattern (element : Node Unit) (isOpen : Bool) : Node Unit :=
      .object () [(.string () "a", .array () [element] isOpen)] true
    let v : Value := .object [("a", .array [.null]), ("b", .function 0)]
    Changed Loosens (pattern (.null ()) false) (pattern (.rest ()) true) ∧
      (pattern (.null ()) false).accepts v = .ok true ∧
      (pattern (.rest ()) true).accepts v = .ok true ∧
      Value.null.FunctionFree ∧ (pattern (.rest ()) true).accepts .null = .ok false ∧
      (pattern (.null ()) false).accepts .null = .ok false := by
  intro pattern v
  have hopened : Changes Loosens (pattern (.null ()) false) (pattern (.null ()) true) :=
    .value (i := 0) rfl (.root .openArray)
  have hrest : Changes Loosens (pattern (.null ()) true) (pattern (.rest ()) true) :=
    .value (i := 0) rfl (.element (i := 0) rfl (.root .rest))
  have hloosened : Changed Loosens (pattern (.null ()) false) (pattern (.rest ()) true) :=
    .tail (.single hopened) hrest
  have hfree : Value.null.FunctionFree :=
    Value.Plain.at?_ne_function ((Value.plain_leaf rfl).mpr ⟨trivial, rfl⟩)
  have hloose := accepts_of_loosened _ _ hloosened
  exact ⟨hloosened, rfl, (hloose v).1 rfl, hfree, rfl, (hloose .null).2 hfree rfl⟩

end ValuePattern.Node
