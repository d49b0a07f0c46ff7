import ValuePattern.Proofs.Node.Marks
import ValuePattern.Proofs.Node.Spared
import ValuePattern.Proofs.Value.Equivalence
/-!
The tree that is written like a value: the same scalars, arrays and objects, and nothing left open.
It matches exactly the values that are the same up to the order of fields and the sign of zero.
-/
namespace ValuePattern.Node

mutual

/-- The tree that is written like a value. There is none for a function. -/
def ofValue? : Value → Option (Node Unit)
  | .missing => some (.missing ())
  | .null => some (.null ())
  | .boolean truth => some (.boolean () truth)
  | .number x => some (.number () x)
  | .string text => some (.string () text)
  | .array items => (ofItems? items).map fun elements => .array () elements false
  | .object fields => (ofFields? fields).map fun pairs => .object () pairs false
  | .function _ => none

def ofItems? : List Value → Option (List (Node Unit))
  | [] => some []
  | item :: items =>
    match ofValue? item, ofItems? items with
    | some element, some elements => some (element :: elements)
    | _, _ => none

def ofFields? : List (String × Value) → Option (List (Node Unit × Node Unit))
  | [] => some []
  | (name, value) :: fields =>
    match ofValue? value, ofFields? fields with
    | some node, some pairs => some ((.string () name, node) :: pairs)
    | _, _ => none

end

variable {α : Type} {v : Value} {items ws : List Value} {fields fields' : List (String × Value)}

section Entries

variable {Q : Value → Node Unit → Prop}

theorem exists_ofItems? (h : ∀ v ∈ items, ∃ x, ofValue? v = some x ∧ Q v x) :
    ∃ elements, ofItems? items = some elements ∧ List.Forall₂ Q items elements := by
  induction items with
  | nil => exact ⟨[], rfl, .nil⟩
  | cons v items ih =>
    obtain ⟨⟨x, hx, hQ⟩, hrest⟩ := List.forall_mem_cons.mp h
    obtain ⟨elements, helements, hrelated⟩ := ih hrest
    exact ⟨x :: elements, by rw [ofItems?, hx, helements], .cons hQ hrelated⟩

theorem exists_ofFields? (h : ∀ field ∈ fields, ∃ x, ofValue? field.2 = some x ∧ Q field.2 x) :
    ∃ pairs, ofFields? fields = some pairs ∧
      List.Forall₂ (fun field pair => pair.1.keyName = field.1 ∧ Q field.2 pair.2) fields pairs := by
  induction fields with
  | nil => exact ⟨[], rfl, .nil⟩
  | cons field fields ih =>
    obtain ⟨⟨x, hx, hQ⟩, hrest⟩ := List.forall_mem_cons.mp h
    obtain ⟨pairs, hpairs, hrelated⟩ := ih hrest
    exact ⟨(.string () field.1, x) :: pairs, by rw [ofFields?, hx, hpairs], .cons ⟨rfl, hQ⟩ hrelated⟩

end Entries

theorem sizeFits_closed_iff {actual declared : Nat} :
    sizeFits actual declared false = true ↔ actual = declared := by simp [sizeFits]

/-- A closed array pattern matches item by item. -/
theorem accepts_closed_array_iff {mark : α} {elements : List (Node α)} :
    accepts (array mark elements false) (.array ws) = .ok true ↔
      List.Forall₂ (fun x w => x.accepts w = .ok true) elements ws := by
  rw [accepts_array_iff, sizeFits_closed_iff, List.forall₂_iff_get]
  constructor
  · rintro ⟨hlength, hitems⟩
    refine ⟨hlength.symm, fun i hx hw => ?_⟩
    exact hitems i _ _ (List.getElem?_eq_getElem hx) (List.getElem?_eq_getElem hw)
  · rintro ⟨hlength, hitems⟩
    refine ⟨hlength.symm, fun i x w hx hw => ?_⟩
    obtain ⟨hi, rfl⟩ := List.getElem?_eq_some_iff.mp hx
    obtain ⟨hi', rfl⟩ := List.getElem?_eq_some_iff.mp hw
    exact hitems i hi hi'

/-- A tree matches exactly the values that are equivalent to a value. -/
def Decides (v : Value) (n : Node α) : Prop := ∀ w, n.accepts w = .ok true ↔ v.Equivalent w

section Decides

variable {elements : List (Node α)} {pairs : List (Node α × Node α)} (mark : α)

theorem decides_missing : Decides .missing (missing mark) := by
  intro w
  cases w with
  | missing => exact iff_of_true rfl .missing
  | _ => exact iff_of_false (by simp [accepts]) fun h => by cases h

theorem decides_null : Decides .null (null mark) := by
  intro w
  cases w with
  | null => exact iff_of_true rfl .null
  | _ => exact iff_of_false (by simp [accepts]) fun h => by cases h

theorem decides_boolean (a : Bool) : Decides (.boolean a) (boolean mark a) := by
  intro w
  cases w with
  | boolean b =>
    rw [accepts, Except.ok.injEq, beq_iff_eq]
    exact ⟨fun h => h ▸ .boolean, fun h => by cases h; rfl⟩
  | _ => exact iff_of_false (by simp [accepts]) fun h => by cases h

theorem decides_string (s : String) : Decides (.string s) (string mark s) := by
  intro w
  cases w with
  | string t =>
    rw [accepts, Except.ok.injEq, beq_iff_eq]
    exact ⟨fun h => h ▸ .string, fun h => by cases h; rfl⟩
  | _ => exact iff_of_false (by simp [accepts]) fun h => by cases h

theorem decides_number {x : Double} (hx : x ≠ .nan) : Decides (.number x) (number mark x) := by
  intro w
  cases w with
  | number y =>
    rw [accepts, Except.ok.injEq, Double.beq_iff_sameUpToZeroSign hx]
    exact ⟨.number, fun h => by cases h; assumption⟩
  | _ => exact iff_of_false (by simp [accepts]) fun h => by cases h

theorem forall₂_accepts_iff (h : List.Forall₂ Decides items elements) :
    List.Forall₂ (fun x w => x.accepts w = .ok true) elements ws ↔
      List.Forall₂ Value.Equivalent items ws := by
  induction h generalizing ws with
  | nil => simp only [List.forall₂_nil_left_iff]
  | cons hdecides _ ih =>
    cases ws with
    | nil => simp
    | cons w ws => rw [List.forall₂_cons, List.forall₂_cons, hdecides w, ih]

theorem decides_array (h : List.Forall₂ Decides items elements) :
    Decides (.array items) (array mark elements false) := by
  intro w
  cases w with
  | array ws => rw [accepts_closed_array_iff, forall₂_accepts_iff h, Value.equivalent_array_iff]
  | _ => exact iff_of_false (by simp [accepts]) fun h => by cases h

theorem fulfilled_iff
    (h : List.Forall₂ (fun field pair => pair.1.keyName = field.1 ∧ Decides field.2 pair.2)
      fields pairs) :
    Fulfilled pairs fields' ↔
      ∀ field ∈ fields, ∃ w, Entries.get? field.1 fields' = some w ∧ field.2.Equivalent w := by
  induction h with
  | nil => simp [Fulfilled]
  | cons hfirst _ ih =>
    obtain ⟨hname, hdecides⟩ := hfirst
    rw [Fulfilled, List.forall_mem_cons, ← Fulfilled, ih, List.forall_mem_cons, hname]
    exact and_congr_left' (exists_congr fun w => and_congr_right' (hdecides w))

theorem decides_object (hnodup : (Entries.keys fields).Nodup)
    (h : List.Forall₂ (fun field pair => pair.1.keyName = field.1 ∧ Decides field.2 pair.2)
      fields pairs) :
    Decides (.object fields) (object mark pairs false) := by
  intro w
  cases w with
  | object fields' =>
    -- as the names are distinct, a count and a look-up of every name leave no field over
    rw [accepts_object_iff, sizeFits_closed_iff, fulfilled_iff h,
      Value.equivalent_object_iff hnodup, h.length_eq]
  | _ => exact iff_of_false (by simp [accepts]) fun h => by cases h

end Decides

/-- A value without functions and NaN has a tree that is written like it, and this tree decides
equivalence with the value. -/
theorem exists_decides (hplain : v.Plain) (hnan : v.NaNFree) :
    ∃ n, ofValue? v = some n ∧ Decides v n := by
  induction v using Value.induction with
  | missing => exact ⟨.missing (), rfl, decides_missing ()⟩
  | null => exact ⟨.null (), rfl, decides_null ()⟩
  | boolean a => exact ⟨.boolean () a, rfl, decides_boolean () a⟩
  | string s => exact ⟨.string () s, rfl, decides_string () s⟩
  | number x =>
    have hx : x ≠ .nan := fun hx => (Parts.everywhere_iff.mp hnan).1 (congrArg Value.number hx)
    exact ⟨.number () x, rfl, decides_number () hx⟩
  | function f => exact absurd (Parts.everywhere_iff.mp hplain).1.2 (by simp [Value.function?])
  | array items ih =>
    have hbelow := Value.plain_array.mp hplain
    have hnan' := (Value.everywhere_array.mp hnan).2
    obtain ⟨elements, helements, hdecides⟩ :=
      exists_ofItems? fun item hitem => ih item hitem (hbelow item hitem) (hnan' item hitem)
    exact ⟨.array () elements false, by rw [ofValue?, helements]; rfl, decides_array () hdecides⟩
  | object fields ih =>
    obtain ⟨hnodup, hbelow⟩ := Value.plain_object.mp hplain
    have hnan' := (Value.everywhere_object.mp hnan).2
    obtain ⟨pairs, hpairs, hdecides⟩ := exists_ofFields? fun field hfield =>
      ih field hfield (hbelow field hfield) (hnan' field hfield)
    exact ⟨.object () pairs false, by rw [ofValue?, hpairs]; rfl, decides_object () hnodup hdecides⟩

/-- A value without functions and NaN has a tree that is written like it. Whatever its marks, this tree
matches exactly the values that are the same up to the order of fields and the sign of zero, and
matching it fails only at a value with a function in it. -/
theorem literal_decides_equivalence (v : Value) (hplain : v.Plain) (hnan : v.NaNFree) :
    ∃ literal, ofValue? v = some literal ∧ ∀ n : Node α, n.erase = literal → ∀ w,
      (n.accepts w = .ok true ↔ v.Equivalent w) ∧
      ∀ u, n.accepts w = .error u → ∃ path f, w.at? path = some (.function f) := by
  obtain ⟨literal, hliteral, hdecides⟩ := exists_decides hplain hnan
  refine ⟨literal, hliteral, fun n hn w => ⟨?_, fun u herror => ?_⟩⟩
  · rw [← accepts_erase, hn]
    exact hdecides w
  · by_contra hnone
    obtain ⟨b, hok⟩ := n.exists_accepts_eq_ok fun path f h => hnone ⟨path, f, h⟩
    exact absurd (herror.symm.trans hok) (by simp)

/-- The tree written like an object matches it with its fields in another order and the other zero. -/
theorem literal_decides_equivalence_zeros :
    let v : Value := .object [("a", .array [.number (.number false .zero)]), ("b", .null)]
    let w : Value := .object [("b", .null), ("a", .array [.number (.number true .zero)])]
    let n : Node Nat := .object 0
      [(.string 1 "a", .array 2 [.number 3 (.number false .zero)] false), (.string 4 "b", .null 5)]
      false
    v.Plain ∧ v.NaNFree ∧ ofValue? v = some n.erase ∧ n.accepts w = .ok true ∧ v.Equivalent w := by
  intro v w n
  have hnull : Value.Plain .null := (Value.plain_leaf rfl).mpr ⟨trivial, rfl⟩
  have hzero : Value.Plain (.number (.number false .zero)) :=
    (Value.plain_leaf rfl).mpr ⟨trivial, rfl⟩
  have hplain : v.Plain :=
    Value.plain_object.mpr ⟨by decide, by simp [hnull, hzero, Value.plain_array]⟩
  have hnan : v.NaNFree := by
    have hnull : Value.NaNFree .null := (Value.everywhere_leaf rfl).mpr (by simp)
    have hzero : Value.NaNFree (.number (.number false .zero)) :=
      (Value.everywhere_leaf rfl).mpr (by simp)
    have hitems : Value.NaNFree (.array [.number (.number false .zero)]) :=
      Value.everywhere_array.mpr ⟨by simp, List.forall_mem_singleton.mpr hzero⟩
    refine Value.everywhere_object.mpr ⟨by simp, List.forall_mem_cons.mpr ⟨hitems, ?_⟩⟩
    exact List.forall_mem_singleton.mpr hnull
  obtain ⟨literal, hliteral, hdecides⟩ := literal_decides_equivalence v hplain hnan
  have hn : n.erase = literal := Option.some.inj hliteral
  have haccepts : n.accepts w = .ok true := rfl
  exact ⟨hplain, hnan, rfl, haccepts, (hdecides n hn w).1.mp haccepts⟩

end ValuePattern.Node
