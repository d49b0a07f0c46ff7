import ValuePattern.Json
import ValuePattern.Proofs.Entries.Insertion
import ValuePattern.Proofs.Value.Parts
/-!
What JSON values become. The relation says it part by part, and for the fields of an object by what is
left of pairs with names that may come again; it holds of exactly one value, which is the one that is
built. There is no function in it, and no object in it has a name twice.
-/
namespace ValuePattern

/-- A JSON value and the value that it becomes. -/
inductive Json.Becomes : Json → Value → Prop
  | null : Becomes .null .null
  | boolean (truth : Bool) : Becomes (.boolean truth) (.boolean truth)
  | number (x : Double) : Becomes (.number (some x)) (.number x)
  /-- a number that can be no double -/
  | noDouble : Becomes (.number none) (.number .nan)
  | string (text : String) : Becomes (.string text) (.string text)
  | array {items : List Json} {vs : List Value} : List.Forall₂ Becomes items vs →
      Becomes (.array items) (.array vs)
  | object {fields : List (String × Json)} {pairs entries : List (String × Value)} :
      Entries.keys pairs = Entries.keys fields →
      List.Forall₂ Becomes (fields.map Prod.snd) (pairs.map Prod.snd) → Entries.Kept pairs entries →
      Becomes (.object fields) (.object entries)

namespace Value

open Json (Becomes)

theorem keys_ofFields (fields : List (String × Json)) :
    Entries.keys (ofFields fields) = Entries.keys fields := by
  induction fields with
  | nil => rfl
  | cons field fields ih => exact congrArg (field.1 :: ·) ih

/-- Fields are given by their names and their contents. -/
theorem eq_ofFields {fields : List (String × Json)} {pairs : List (String × Value)}
    (hkeys : Entries.keys pairs = Entries.keys fields)
    (hcontents : pairs.map Prod.snd = (ofFields fields).map Prod.snd) : pairs = ofFields fields := by
  have hnames : pairs.map Prod.fst = (ofFields fields).map Prod.fst :=
    hkeys.trans (keys_ofFields fields).symm
  exact (List.zip_of_prod hnames hcontents).trans (List.zip_of_prod rfl rfl).symm

mutual

theorem becomes_ofJson : (json : Json) → Becomes json (ofJson json)
  | .null => .null
  | .boolean truth => .boolean truth
  | .number none => .noDouble
  | .number (some x) => .number x
  | .string text => .string text
  | .array items => .array (becomes_ofItems items)
  | .object fields =>
    .object (keys_ofFields fields) (becomes_ofFields fields) (Entries.kept_ofPairs _)

theorem becomes_ofItems : (items : List Json) → List.Forall₂ Becomes items (ofItems items)
  | [] => .nil
  | item :: items => .cons (becomes_ofJson item) (becomes_ofItems items)

theorem becomes_ofFields : (fields : List (String × Json)) →
    List.Forall₂ Becomes (fields.map Prod.snd) ((ofFields fields).map Prod.snd)
  | [] => .nil
  | (_, content) :: fields => .cons (becomes_ofJson content) (becomes_ofFields fields)

end

mutual

theorem eq_ofJson : (json : Json) → ∀ {v}, Becomes json v → v = ofJson json
  | .null, _, .null => rfl
  | .boolean _, _, .boolean _ => rfl
  | .number _, _, .noDouble => rfl
  | .number _, _, .number _ => rfl
  | .string _, _, .string _ => rfl
  | .array items, _, .array hitems => congrArg array (eq_ofItems items hitems)
  | .object fields, _, .object hkeys hcontents hkept => by
    obtain rfl := eq_ofFields hkeys (eq_contents fields hcontents)
    exact congrArg object (hkept.eq (Entries.kept_ofPairs _))

theorem eq_ofItems : (items : List Json) → ∀ {vs}, List.Forall₂ Becomes items vs → vs = ofItems items
  | [], _, .nil => rfl
  | item :: items, _, .cons hitem hitems =>
    congrArg₂ List.cons (eq_ofJson item hitem) (eq_ofItems items hitems)

theorem eq_contents : (fields : List (String × Json)) →
    ∀ {vs}, List.Forall₂ Becomes (fields.map Prod.snd) vs → vs = (ofFields fields).map Prod.snd
  | [], _, .nil => rfl
  | (_, content) :: fields, _, .cons hcontent hcontents =>
    congrArg₂ List.cons (eq_ofJson content hcontent) (eq_contents fields hcontents)

end

/-- A JSON value becomes one value. -/
theorem becomes_iff {json : Json} {v : Value} : Becomes json v ↔ v = ofJson json :=
  ⟨eq_ofJson json, fun h => h ▸ becomes_ofJson json⟩

theorem exists_becomes_iff {P : Value → Prop} {json : Json} :
    (∃ v, Becomes json v ∧ P v) ↔ P (ofJson json) := by
  simp only [becomes_iff, exists_eq_left]

mutual

theorem plain_ofJson : (json : Json) → (ofJson json).Plain
  | .null => (plain_leaf rfl).mpr ⟨trivial, rfl⟩
  | .boolean _ => (plain_leaf rfl).mpr ⟨trivial, rfl⟩
  | .number _ => (plain_leaf rfl).mpr ⟨trivial, rfl⟩
  | .string _ => (plain_leaf rfl).mpr ⟨trivial, rfl⟩
  | .array items => plain_array.mpr (plain_of_mem_ofItems items)
  | .object fields => plain_object.mpr
      ⟨Entries.nodup_keys_ofPairs _, fun field hfield =>
        plain_of_mem_ofFields fields field (Entries.mem_ofPairs hfield)⟩

theorem plain_of_mem_ofItems : (items : List Json) → ∀ v ∈ ofItems items, v.Plain
  | [] => by simp [ofItems]
  | item :: items =>
    List.forall_mem_cons.mpr ⟨plain_ofJson item, plain_of_mem_ofItems items⟩

theorem plain_of_mem_ofFields :
    (fields : List (String × Json)) → ∀ field ∈ ofFields fields, field.2.Plain
  | [] => by simp [ofFields]
  | (_, content) :: fields =>
    List.forall_mem_cons.mpr ⟨plain_ofJson content, plain_of_mem_ofFields fields⟩

end

/-- No JSON value becomes one with a function in it, or one in which an object has a name twice. -/
theorem plain_of_becomes {json : Json} {v : Value} (h : Becomes json v) : v.Plain :=
  becomes_iff.mp h ▸ plain_ofJson json

end Value

end ValuePattern
