import ValuePattern.Node.Display
import ValuePattern.Proofs.Node.Parts
import ValuePattern.Table
/-!
Marks play no part. A tree is printed and matched as any tree is that differs from it in its marks
only.
-/
namespace ValuePattern.Node

variable {α β : Type} (f : α → β)

theorem mapElements_eq_map (xs : List (Node α)) : mapElements f xs = xs.map (map f) := by
  induction xs with
  | nil => rfl
  | cons x xs ih => rw [mapElements, ih, List.map_cons]

theorem mapPairs_eq_map (ps : List (Node α × Node α)) :
    mapPairs f ps = ps.map fun p => (map f p.1, map f p.2) := by
  induction ps with
  | nil => rfl
  | cons p ps ih => rw [mapPairs, ih, List.map_cons]

theorem displayElements_eq_map (xs : List (Node α)) : displayElements xs = xs.map display := by
  induction xs with
  | nil => rfl
  | cons x xs ih => rw [displayElements, ih, List.map_cons]

theorem displayPairs_eq_map (ps : List (Node α × Node α)) :
    displayPairs ps = ps.map fun p => display p.1 ++ ": " ++ display p.2 := by
  induction ps with
  | nil => rfl
  | cons p ps ih => rw [displayPairs, ih, List.map_cons]

theorem map_array (mark : α) (elements : List (Node α)) (isOpen : Bool) :
    map f (.array mark elements isOpen) = .array (f mark) (elements.map (map f)) isOpen := by
  rw [map, mapElements_eq_map]

theorem map_object (mark : α) (pairs : List (Node α × Node α)) (isOpen : Bool) :
    map f (.object mark pairs isOpen) =
      .object (f mark) (pairs.map fun p => (map f p.1, map f p.2)) isOpen := by
  rw [map, mapPairs_eq_map]

theorem erase_array (mark : α) (elements : List (Node α)) (isOpen : Bool) :
    erase (.array mark elements isOpen) = .array () (elements.map erase) isOpen := map_array _ _ _ _

theorem erase_object (mark : α) (pairs : List (Node α × Node α)) (isOpen : Bool) :
    erase (.object mark pairs isOpen) =
      .object () (pairs.map fun p => (erase p.1, erase p.2)) isOpen := map_object _ _ _ _

theorem isRest_erase (n : Node α) : n.erase.isRest = n.isRest := isRest_map _ n

theorem display_map (n : Node α) : (n.map f).display = n.display := by
  induction n using Node.induction with
  | array mark elements isOpen ih =>
    have h : elements.map (display ∘ map f) = elements.map display := List.map_congr_left ih
    simp only [map_array, display, displayElements_eq_map, List.map_map, h]
  | object mark pairs isOpen ih =>
    have h (p : Node α × Node α) (hp : p ∈ pairs) :
        display (map f p.1) ++ ": " ++ display (map f p.2) = display p.1 ++ ": " ++ display p.2 := by
      rw [(ih p hp).1, (ih p hp).2]
    simp only [map_object, display, displayPairs_eq_map, List.map_map, Function.comp_def,
      List.map_congr_left h]
  | _ => rfl

theorem display_erase (n : Node α) : n.erase.display = n.display := display_map _ n

theorem acceptsItems_map {elements : List (Node α)}
    (h : ∀ x ∈ elements, ∀ v, (x.map f).accepts v = x.accepts v) (items : List Value) :
    acceptsItems (elements.map (map f)) items = acceptsItems elements items := by
  induction elements generalizing items with
  | nil => rfl
  | cons x elements ih =>
    obtain ⟨hx, hxs⟩ := List.forall_mem_cons.mp h
    cases items with
    | nil => rfl
    | cons v items => simp only [List.map_cons, acceptsItems, hx, ih hxs]

theorem acceptsFields_map {pairs : List (Node α × Node α)}
    (h : ∀ p ∈ pairs, ∀ v, (p.2.map f).accepts v = p.2.accepts v)
    (fields : List (String × Value)) :
    acceptsFields (pairs.map fun p => (map f p.1, map f p.2)) fields =
      acceptsFields pairs fields := by
  induction pairs with
  | nil => rfl
  | cons p pairs ih =>
    obtain ⟨hp, hps⟩ := List.forall_mem_cons.mp h
    simp only [List.map_cons, acceptsFields, keyName_map, hp, ih hps]

theorem accepts_map (n : Node α) (v : Value) : (n.map f).accepts v = n.accepts v := by
  induction n using Node.induction generalizing v with
  | array mark elements isOpen ih =>
    rw [map_array]
    cases v with
    | array items => simp only [accepts, List.length_map, acceptsItems_map f ih]
    | _ => rfl
  | object mark pairs isOpen ih =>
    rw [map_object]
    cases v with
    | object fields =>
      simp only [accepts, List.length_map, acceptsFields_map f fun p hp => (ih p hp).2]
    | _ => rfl
  | _ => cases v <;> rfl

theorem accepts_erase (n : Node α) (v : Value) : n.erase.accepts v = n.accepts v :=
  accepts_map _ n v

end ValuePattern.Node
