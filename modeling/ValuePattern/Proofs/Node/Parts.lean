import ValuePattern.Node.Basic
import ValuePattern.Proofs.Parts
/-!
The parts of a pattern tree: the tree itself, and the parts of the elements of an array and of the
keys and values of an object. What holds of every part holds at every depth.
-/
namespace ValuePattern.Node

variable {α : Type}

/-- Induction over trees: the entries of an array or object are trees for which the statement is
known. -/
theorem induction {motive : Node α → Prop}
    (array : ∀ mark elements isOpen, (∀ x ∈ elements, motive x) →
      motive (.array mark elements isOpen))
    (object : ∀ mark pairs isOpen, (∀ p ∈ pairs, motive p.1 ∧ motive p.2) →
      motive (.object mark pairs isOpen))
    (number : ∀ mark x, motive (.number mark x))
    (string : ∀ mark text, motive (.string mark text))
    (boolean : ∀ mark truth, motive (.boolean mark truth))
    (missing : ∀ mark, motive (.missing mark))
    (null : ∀ mark, motive (.null mark))
    (rest : ∀ mark, motive (.rest mark)) (n : Node α) : motive n := by
  refine @Node.rec α motive (fun xs => ∀ x ∈ xs, motive x)
    (fun ps => ∀ p ∈ ps, motive p.1 ∧ motive p.2) (fun p => motive p.1 ∧ motive p.2)
    array object number string boolean missing null rest ?_ ?_ ?_ ?_ ?_ n
  · simp
  · intro x xs hx hxs
    exact List.forall_mem_cons.mpr ⟨hx, hxs⟩
  · simp
  · intro p ps hp hps
    exact List.forall_mem_cons.mpr ⟨hp, hps⟩
  · intro key value hkey hvalue
    exact ⟨hkey, hvalue⟩

/-- The trees right below the root: the elements of an array, the keys and values of an object. -/
def children : Node α → List (Node α)
  | array _ elements _ => elements
  | object _ pairs _ => pairs.flatMap fun p => [p.1, p.2]
  | _ => []

/-- A property of all parts of a tree. -/
def Everywhere (P : Node α → Prop) (n : Node α) : Prop := Parts.Everywhere children P n

variable {P : Node α → Prop} {n : Node α} {mark : α} {isOpen : Bool}

theorem forall_mem_children_object {pairs : List (Node α × Node α)} :
    (∀ x ∈ (object mark pairs isOpen).children, P x) ↔ ∀ p ∈ pairs, P p.1 ∧ P p.2 := by
  simp only [children, List.mem_flatMap, List.mem_cons, List.not_mem_nil, or_false]
  constructor
  · intro h p hp
    exact ⟨h p.1 ⟨p, hp, .inl rfl⟩, h p.2 ⟨p, hp, .inr rfl⟩⟩
  · rintro h x ⟨p, hp, rfl | rfl⟩
    · exact (h p hp).1
    · exact (h p hp).2

theorem Everywhere.self (h : Everywhere P n) : P n := (Parts.everywhere_iff.mp h).1

theorem everywhere_array {elements : List (Node α)} :
    Everywhere P (array mark elements isOpen) ↔
      P (array mark elements isOpen) ∧ ∀ x ∈ elements, Everywhere P x := Parts.everywhere_iff

theorem everywhere_object {pairs : List (Node α × Node α)} :
    Everywhere P (object mark pairs isOpen) ↔
      P (object mark pairs isOpen) ∧ ∀ p ∈ pairs, Everywhere P p.1 ∧ Everywhere P p.2 := by
  rw [Everywhere, Parts.everywhere_iff]
  exact and_congr_right' forall_mem_children_object

theorem everywhere_leaf (h : n.children = []) : Everywhere P n ↔ P n := Parts.everywhere_leaf h

end ValuePattern.Node
