import Mathlib.Logic.Relation
import ValuePattern.Proofs.Node.Spared
/-!
Changes inside a pattern tree. A tree covers another if it matches all that the other matches. Arrays
and objects cover others through their entries, so a change after which a tree covers what it was may
be made at any depth, and any number of times.
-/
namespace ValuePattern.Node

variable {α : Type} {step : Node α → Node α → Prop} {n n' : Node α} {v : Value}

/-- A step is taken in one place of a tree: at its root, in an element of an array, or in the value or
the key of a pair. A key may change as long as it stands for the same name. -/
inductive Changes (step : Node α → Node α → Prop) : Node α → Node α → Prop
  | root {n n' : Node α} : step n n' → Changes step n n'
  | element {mark : α} {elements : List (Node α)} {isOpen : Bool} {i : Nat} {x x' : Node α} :
      elements[i]? = some x → Changes step x x' →
      Changes step (.array mark elements isOpen) (.array mark (elements.set i x') isOpen)
  | value {mark : α} {pairs : List (Node α × Node α)} {isOpen : Bool} {i : Nat} {key x x' : Node α} :
      pairs[i]? = some (key, x) → Changes step x x' →
      Changes step (.object mark pairs isOpen) (.object mark (pairs.set i (key, x')) isOpen)
  | key {mark : α} {pairs : List (Node α × Node α)} {isOpen : Bool} {i : Nat} {key key' x : Node α} :
      pairs[i]? = some (key, x) → key'.keyName = key.keyName → Changes step key key' →
      Changes step (.object mark pairs isOpen) (.object mark (pairs.set i (key', x)) isOpen)

/-- Steps are taken in a tree one after another, any number of times. -/
def Changed (step : Node α → Node α → Prop) : Node α → Node α → Prop :=
  Relation.ReflTransGen (Changes step)

/-- An entry that was put into a list stands there, and putting the old one back undoes it. -/
theorem set_and_set_back {β : Type} {xs : List β} {i : Nat} {x : β} (h : xs[i]? = some x)
    (y : β) : (xs.set i y)[i]? = some y ∧ (xs.set i y).set i x = xs := by
  obtain ⟨hlt, rfl⟩ := List.getElem?_eq_some_iff.mp h
  exact ⟨List.getElem?_set_self hlt, by rw [List.set_set, List.set_getElem_self]⟩

theorem Changes.symm (hstep : ∀ {n n' : Node α}, step n n' → step n' n) (h : Changes step n n') :
    Changes step n' n := by
  induction h with
  | root h => exact .root (hstep h)
  | @element mark elements isOpen i x x' hx _ ih =>
    obtain ⟨hx', hback⟩ := set_and_set_back hx x'
    have h : Changes step (.array mark (elements.set i x') isOpen) _ := .element hx' ih
    rwa [hback] at h
  | @value mark pairs isOpen i key x x' hp _ ih =>
    obtain ⟨hp', hback⟩ := set_and_set_back hp (key, x')
    have h : Changes step (.object mark (pairs.set i (key, x')) isOpen) _ := .value hp' ih
    rwa [hback] at h
  | @key mark pairs isOpen i key key' x hp hname _ ih =>
    obtain ⟨hp', hback⟩ := set_and_set_back hp (key', x)
    have h : Changes step (.object mark (pairs.set i (key', x)) isOpen) _ := .key hp' hname.symm ih
    rwa [hback] at h

theorem Changed.symm (hstep : ∀ {n n' : Node α}, step n n' → step n' n) (h : Changed step n n') :
    Changed step n' n := by
  have : Std.Symm (Changes step) := ⟨fun _ _ hchange => hchange.symm hstep⟩
  exact Relation.ReflTransGen.stdSymm.symm _ _ h

/-- One tree matches every value that another matches. -/
def Covers (n' n : Node α) : Prop := ∀ v, n.accepts v = .ok true → n'.accepts v = .ok true

theorem Covers.refl (n : Node α) : n.Covers n := fun _ h => h

theorem Covers.trans {m : Node α} (h' : n'.Covers m) (h : m.Covers n) : n'.Covers n :=
  fun v hv => h' v (h v hv)

theorem Covers.accepts_eq_false (h : n'.Covers n) (hfree : v.FunctionFree)
    (hfalse : n'.accepts v = .ok false) : n.accepts v = .ok false := by
  obtain ⟨b, hb⟩ := n.exists_accepts_eq_ok hfree
  cases b with
  | false => exact hb
  | true => exact absurd ((h v hb).symm.trans hfalse) (by simp)

section Entries

variable {mark mark' : α} {isOpen isOpen' : Bool}

theorem sizeFits_mono {actual declared : Nat} (hopen : isOpen = true → isOpen' = true)
    (h : sizeFits actual declared isOpen = true) : sizeFits actual declared isOpen' = true := by
  obtain ⟨hle, hclosed⟩ := sizeFits_iff.mp h
  refine sizeFits_iff.mpr ⟨hle, fun hopen' => hclosed ?_⟩
  exact Bool.eq_false_iff.mpr fun h => by simp [hopen h] at hopen'

theorem covers_array {elements elements' : List (Node α)}
    (hlength : elements'.length = elements.length) (hopen : isOpen = true → isOpen' = true)
    (h : ∀ (i : Nat) (x' : Node α), elements'[i]? = some x' → ∃ x, elements[i]? = some x ∧ x'.Covers x) :
    (array mark' elements' isOpen').Covers (array mark elements isOpen) := by
  intro v hv
  cases v with
  | array items =>
    obtain ⟨hsize, hitems⟩ := accepts_array_iff.mp hv
    refine accepts_array_iff.mpr ⟨sizeFits_mono hopen (hlength ▸ hsize), fun i x' v hx' hv => ?_⟩
    obtain ⟨x, hx, hcovers⟩ := h i x' hx'
    exact hcovers v (hitems i x v hx hv)
  | _ => simp [accepts] at hv

theorem covers_object {pairs pairs' : List (Node α × Node α)}
    (hlength : pairs'.length = pairs.length) (hopen : isOpen = true → isOpen' = true)
    (h : ∀ p' ∈ pairs', ∃ p ∈ pairs, p'.1.keyName = p.1.keyName ∧ p'.2.Covers p.2) :
    (object mark' pairs' isOpen').Covers (object mark pairs isOpen) := by
  intro v hv
  cases v with
  | object fields =>
    obtain ⟨hsize, hfulfilled⟩ := accepts_object_iff.mp hv
    refine accepts_object_iff.mpr ⟨sizeFits_mono hopen (hlength ▸ hsize), fun p' hp' => ?_⟩
    obtain ⟨p, hp, hname, hcovers⟩ := h p' hp'
    obtain ⟨v, hv, haccepts⟩ := hfulfilled p hp
    exact ⟨v, hname ▸ hv, hcovers v haccepts⟩
  | _ => simp [accepts] at hv

/-- A change in one pair keeps the others as they are. -/
theorem covers_object_set {pairs : List (Node α × Node α)} {i : Nat} {p p' : Node α × Node α}
    (hp : pairs[i]? = some p) (hname : p'.1.keyName = p.1.keyName) (hcovers : p'.2.Covers p.2) :
    (object mark (pairs.set i p') isOpen).Covers (object mark pairs isOpen) := by
  refine covers_object List.length_set id fun q hq => ?_
  rcases List.mem_or_eq_of_mem_set hq with hq | rfl
  · exact ⟨q, hq, rfl, .refl q.2⟩
  · exact ⟨p, List.mem_of_getElem? hp, hname, hcovers⟩

end Entries

/-- If a tree covers what it was before a step at its root, it covers what it was before a step at any
depth. -/
theorem covers_of_changes (hstep : ∀ {n n' : Node α}, step n n' → n'.Covers n)
    (h : Changes step n n') : n'.Covers n := by
  induction h with
  | root h => exact hstep h
  | @element mark elements isOpen i x x' hx _ ih =>
    refine covers_array List.length_set id fun j y hy => ?_
    rw [List.getElem?_set] at hy
    split at hy
    · rename_i hij
      subst hij
      split at hy
      · obtain rfl := Option.some.inj hy
        exact ⟨x, hx, ih⟩
      · cases hy
    · exact ⟨y, hy, .refl y⟩
  | value hp _ ih => exact covers_object_set hp rfl ih
  | key hp hname _ _ => exact covers_object_set hp hname (.refl _)

/-- The same holds of any number of steps. -/
theorem covers_of_changed (hstep : ∀ {n n' : Node α}, step n n' → n'.Covers n)
    (h : Changed step n n') : n'.Covers n := by
  induction h with
  | refl => exact .refl n
  | tail _ hlast ih => exact (covers_of_changes hstep hlast).trans ih

end ValuePattern.Node
