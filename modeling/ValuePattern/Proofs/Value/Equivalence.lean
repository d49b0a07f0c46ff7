import ValuePattern.Proofs.Double.Equality
import ValuePattern.Proofs.Entries.Order
import ValuePattern.Proofs.Value.Parts
/-!
Values that are the same up to the order of fields in objects and the sign of zero, at every depth. An
object with distinct names is equivalent to one with as many fields exactly if each of its fields is
found there with an equivalent value: as the names are distinct, no field is left over.
-/
namespace ValuePattern.Value

/-- Two values are the same up to the order of the fields of objects and the sign of zero. -/
inductive Equivalent : Value → Value → Prop
  | missing : Equivalent .missing .missing
  | null : Equivalent .null .null
  | boolean {truth : Bool} : Equivalent (.boolean truth) (.boolean truth)
  | number {x y : Double} : x.SameUpToZeroSign y → Equivalent (.number x) (.number y)
  | string {text : String} : Equivalent (.string text) (.string text)
  | array {xs ys : List Value} : List.Forall₂ Equivalent xs ys → Equivalent (.array xs) (.array ys)
  /-- the fields of one are, in another order, fields with the names of the other, and equivalent -/
  | object {xs ys zs : List (String × Value)} : zs.Perm ys → Entries.keys xs = Entries.keys zs →
      List.Forall₂ Equivalent (xs.map Prod.snd) (zs.map Prod.snd) →
      Equivalent (.object xs) (.object ys)
  | function {f : FunctionRef} : Equivalent (.function f) (.function f)

/-- Two values have the same kind, and if they are scalars the same content up to the sign of zero. -/
inductive SameOutside : Value → Value → Prop
  | missing : SameOutside .missing .missing
  | null : SameOutside .null .null
  | boolean {truth : Bool} : SameOutside (.boolean truth) (.boolean truth)
  | number {x y : Double} : x.SameUpToZeroSign y → SameOutside (.number x) (.number y)
  | string {text : String} : SameOutside (.string text) (.string text)
  | array {xs ys : List Value} : SameOutside (.array xs) (.array ys)
  | object {xs ys : List (String × Value)} : SameOutside (.object xs) (.object ys)
  | function {f g : FunctionRef} : SameOutside (.function f) (.function g)

variable {v w : Value} {xs ys : List (String × Value)}

theorem Equivalent.sameOutside (h : v.Equivalent w) : v.SameOutside w := by
  cases h with
  | number hsame => exact .number hsame
  | _ => constructor

theorem equivalent_array_iff {xs ys : List Value} :
    (array xs).Equivalent (array ys) ↔ List.Forall₂ Equivalent xs ys := by
  refine ⟨fun h => ?_, .array⟩
  cases h with
  | array hitems => exact hitems

theorem Equivalent.keys_perm (h : (Value.object xs).Equivalent (.object ys)) :
    (Entries.keys xs).Perm (Entries.keys ys) := by
  cases h with
  | object hperm hkeys hfields =>
    rw [hkeys]
    exact hperm.map Prod.fst

/-- A field of one object is found in an equivalent one. -/
theorem Equivalent.exists_get? {name : String} (h : (Value.object xs).Equivalent (.object ys))
    (hnodup : (Entries.keys xs).Nodup) (hv : Entries.get? name xs = some v) :
    ∃ w, Entries.get? name ys = some w ∧ v.Equivalent w := by
  cases h with
  | object hperm hkeys hfields =>
    rw [hkeys] at hnodup
    rw [← Entries.get?_eq_of_perm hperm hnodup]
    exact Entries.exists_get?_of_forall₂ hkeys hfields hv

theorem equivalent_object_iff (hnodup : (Entries.keys xs).Nodup) :
    (object xs).Equivalent (object ys) ↔ ys.length = xs.length ∧
      ∀ x ∈ xs, ∃ w, Entries.get? x.1 ys = some w ∧ x.2.Equivalent w := by
  constructor
  · intro h
    have hlength := h.keys_perm.length_eq
    rw [Entries.length_keys, Entries.length_keys] at hlength
    exact ⟨hlength.symm, fun x hx => h.exists_get? hnodup (Entries.get?_of_mem hnodup hx)⟩
  · rintro ⟨hlength, hfields⟩
    obtain ⟨zs, hperm, hkeys, hentries⟩ := Entries.exists_perm hnodup (Nat.le_of_eq hlength) hfields
    exact .object hperm hkeys hentries

end ValuePattern.Value
