import ValuePattern.Proofs.Entries.Names
import ValuePattern.Proofs.Parts
import ValuePattern.Value.Basic
/-!
The parts of a value: the value itself, and the parts of the items of an array and of the fields of
an object. Objects that come of inserting have distinct names; plain values have no functions in them
either. A path leads from a value to one of its parts, by positions of items and names of fields.
-/
namespace ValuePattern.Value

/-- Induction over values: the items of an array and the fields of an object are values for which the
statement is known. -/
theorem induction {motive : Value → Prop}
    (missing : motive .missing)
    (null : motive .null)
    (boolean : ∀ truth, motive (.boolean truth))
    (number : ∀ x, motive (.number x))
    (string : ∀ text, motive (.string text))
    (array : ∀ items, (∀ item ∈ items, motive item) → motive (.array items))
    (object : ∀ fields, (∀ field ∈ fields, motive field.2) → motive (.object fields))
    (function : ∀ reference, motive (.function reference)) (v : Value) : motive v := by
  refine @Value.rec motive (fun items => ∀ item ∈ items, motive item)
    (fun fields => ∀ field ∈ fields, motive field.2) (fun field => motive field.2)
    missing null boolean number string array object function ?_ ?_ ?_ ?_ ?_ v
  · simp
  · intro item items hitem hitems
    exact List.forall_mem_cons.mpr ⟨hitem, hitems⟩
  · simp
  · intro field fields hfield hfields
    exact List.forall_mem_cons.mpr ⟨hfield, hfields⟩
  · intro name value hvalue
    exact hvalue

/-- The values right below the root: the items of an array, the fields of an object. -/
def children : Value → List Value
  | array items => items
  | object fields => fields.map (·.2)
  | _ => []

/-- A property of all parts of a value. -/
def Everywhere (P : Value → Prop) (v : Value) : Prop := Parts.Everywhere children P v

/-- No two fields of an object have the same name. -/
def DistinctNames : Value → Prop
  | object fields => (Entries.keys fields).Nodup
  | _ => True

/-- A value without functions whose objects have distinct names, at every depth. -/
def Plain (v : Value) : Prop := v.Everywhere fun part => part.DistinctNames ∧ part.function? = none

/-- A value in which no number is NaN, at any depth. -/
def NaNFree (v : Value) : Prop := v.Everywhere fun part => part ≠ .number .nan

variable {P : Value → Prop} {v w : Value} {items : List Value} {fields : List (String × Value)}

theorem everywhere_array :
    Everywhere P (array items) ↔ P (array items) ∧ ∀ item ∈ items, Everywhere P item :=
  Parts.everywhere_iff

theorem everywhere_object :
    Everywhere P (object fields) ↔ P (object fields) ∧ ∀ field ∈ fields, Everywhere P field.2 := by
  rw [Everywhere, Parts.everywhere_iff]
  exact and_congr_right' List.forall_mem_map

theorem everywhere_leaf (h : v.children = []) : Everywhere P v ↔ P v := Parts.everywhere_leaf h

theorem plain_object :
    Plain (object fields) ↔ (Entries.keys fields).Nodup ∧ ∀ field ∈ fields, Plain field.2 := by
  rw [Plain, everywhere_object]
  exact and_congr_left' (and_iff_left rfl)

theorem plain_array : Plain (array items) ↔ ∀ item ∈ items, Plain item :=
  everywhere_array.trans (and_iff_right ⟨trivial, rfl⟩)

theorem plain_leaf (h : v.children = []) : Plain v ↔ v.DistinctNames ∧ v.function? = none :=
  everywhere_leaf h

/-- One step down into a value. -/
inductive Step where
  /-- to an item of an array -/
  | item (index : Nat)
  /-- to the field of an object under a name -/
  | field (name : String)
  deriving DecidableEq, Repr

/-- The value that one step leads to. -/
def child? : Value → Step → Option Value
  | array items, .item index => items[index]?
  | object fields, .field name => Entries.get? name fields
  | _, _ => none

/-- The value at the end of a path. -/
def at? : Value → List Step → Option Value
  | v, [] => some v
  | v, step :: path => (v.child? step).bind fun w => w.at? path

theorem at?_cons {step : Step} (h : v.child? step = some w) (path : List Step) :
    v.at? (step :: path) = w.at? path := by
  rw [at?, h, Option.bind_some]

theorem mem_children_of_child? {step : Step} (h : v.child? step = some w) : w ∈ v.children := by
  cases v with
  | array items =>
    cases step with
    | item index => exact List.mem_of_getElem? h
    | field name => simp [child?] at h
  | object fields =>
    cases step with
    | item index => simp [child?] at h
    | field name => exact List.mem_map_of_mem (Entries.mem_of_get? h)
  | _ => simp [child?] at h

/-- A path leads to a part. -/
theorem isPart_of_at? {path : List Step} (h : v.at? path = some w) : Parts.IsPart children w v := by
  induction path generalizing v with
  | nil =>
    obtain rfl := Option.some.inj h
    exact .self v
  | cons step path ih =>
    rw [at?, Option.bind_eq_some_iff] at h
    obtain ⟨u, hstep, hpath⟩ := h
    exact .child (mem_children_of_child? hstep) (ih hpath)

/-- A value with no function in it, at any depth. -/
def FunctionFree (v : Value) : Prop := ∀ path f, v.at? path ≠ some (.function f)

/-- No path leads from a plain value to a function. -/
theorem Plain.at?_ne_function (h : v.Plain) (path : List Step) (f : FunctionRef) :
    v.at? path ≠ some (.function f) := by
  intro hpath
  obtain ⟨-, hnone⟩ := h _ (isPart_of_at? hpath)
  simp [function?] at hnone

end ValuePattern.Value
