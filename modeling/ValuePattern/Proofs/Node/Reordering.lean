import ValuePattern.Proofs.Node.Blind
import ValuePattern.Proofs.Node.Change
/-!
The order of fields. In a value it makes no difference to any pattern. In a pattern it decides which
check is made first, so it may turn a mismatch into an error where there are functions, but it makes no
difference to what is matched.
-/
namespace ValuePattern.Node

variable {α : Type} {n n' : Node α}

/-- The pairs of an object pattern are put in another order. -/
inductive Reorders : Node α → Node α → Prop
  | pairs {mark : α} {pairs pairs' : List (Node α × Node α)} {isOpen : Bool} :
      pairs.Perm pairs' → Reorders (.object mark pairs isOpen) (.object mark pairs' isOpen)

theorem Reorders.symm (h : Reorders n n') : Reorders n' n := by
  cases h with
  | pairs hperm => exact .pairs hperm.symm

theorem Reorders.covers (h : Reorders n n') : n'.Covers n := by
  cases h with
  | pairs hperm =>
    exact covers_object hperm.length_eq.symm id fun p hp =>
      ⟨p, hperm.mem_iff.mpr hp, rfl, .refl p.2⟩

/-- Without functions there is an answer, so trees that match the same values give the same one. -/
theorem accepts_eq_of_covers {v : Value} (h : n'.Covers n) (h' : n.Covers n')
    (hfree : v.FunctionFree) : n.accepts v = n'.accepts v := by
  obtain ⟨b, hb⟩ := n'.exists_accepts_eq_ok hfree
  cases b with
  | true => exact (h' v hb).trans hb.symm
  | false => exact (h.accepts_eq_false hfree hb).trans hb.symm

/-- The order of fields does not decide a match. Equivalent values, such as two that differ in the order
of fields only, are matched with the same answer, an error included. Patterns that differ in the order
of pairs only match the same values, and give the same answer where there is no function. -/
theorem accepts_eq_of_reordered_fields :
    (∀ (n : Node α) (v w : Value), v.Everywhere Value.DistinctNames → v.Equivalent w →
      n.accepts v = n.accepts w) ∧
    ∀ n n' : Node α, Changed Reorders n n' → ∀ v,
      (n.accepts v = .ok true ↔ n'.accepts v = .ok true) ∧
      (v.FunctionFree → n.accepts v = n'.accepts v) := by
  refine ⟨fun n v w hnames h => ?_, fun n n' h v => ?_⟩
  · exact accepts_eq_of_findings_eq (findings_eq_of_blindTo (blindTo_of_equivalent n hnames h))
  · have hcovers : n'.Covers n := covers_of_changed Reorders.covers h
    have hcovers' : n.Covers n' := covers_of_changed Reorders.covers (h.symm Reorders.symm)
    exact ⟨⟨hcovers v, hcovers' v⟩, accepts_eq_of_covers hcovers hcovers'⟩

/-- An object inside an array, with its two fields and with the two pairs of its pattern in the one
order and in the other. -/
theorem accepts_eq_of_reordered_fields_swapped :
    let a : Node Unit × Node Unit := (.string () "a", .null ())
    let b : Node Unit × Node Unit := (.string () "b", .missing ())
    let n : Node Unit := .array () [.object () [a, b] false] true
    let n' : Node Unit := .array () [.object () [b, a] false] true
    let v : Value := .array [.object [("a", .null), ("b", .missing)]]
    let w : Value := .array [.object [("b", .missing), ("a", .null)]]
    v.Everywhere Value.DistinctNames ∧ v.Equivalent w ∧ n.accepts v = n.accepts w ∧
      Changed Reorders n n' ∧ (n.accepts v = .ok true ↔ n'.accepts v = .ok true) ∧
      v.FunctionFree ∧ n.accepts v = n'.accepts v := by
  intro a b n n' v w
  have hnull : Value.Plain .null := (Value.plain_leaf rfl).mpr ⟨trivial, rfl⟩
  have hmissing : Value.Plain .missing := (Value.plain_leaf rfl).mpr ⟨trivial, rfl⟩
  have hplain : v.Plain := by
    simp [v, Value.plain_array, Value.plain_object, Entries.keys, hnull, hmissing]
  have hnames : v.Everywhere Value.DistinctNames := fun part hpart => (hplain part hpart).1
  have hequivalent : v.Equivalent w :=
    .array (.cons (.object (.swap _ _ _) rfl (.cons .null (.cons .missing .nil))) .nil)
  have hreordered : Changed Reorders n n' :=
    .single (.element (i := 0) rfl (.root (.pairs (.swap b a []))))
  have hfree : v.FunctionFree := hplain.at?_ne_function
  obtain ⟨hvalues, hpatterns⟩ := accepts_eq_of_reordered_fields (α := Unit)
  have hboth := hpatterns n n' hreordered v
  exact ⟨hnames, hequivalent, hvalues n v w hnames hequivalent, hreordered, hboth.1, hfree,
    hboth.2 hfree⟩

/-- At a function it depends on the order of pairs whether the mismatch or the function comes first. -/
example :
    let a : Node Unit × Node Unit := (.string () "a", .null ())
    let b : Node Unit × Node Unit := (.string () "b", .null ())
    let v : Value := .object [("a", .missing), ("b", .function 0)]
    (object () [a, b] false).accepts v = .ok false ∧
      (object () [b, a] false).accepts v = .error ⟨.function⟩ := ⟨rfl, rfl⟩

end ValuePattern.Node
