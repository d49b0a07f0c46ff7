import Mathlib.Data.List.Forall2
import ValuePattern.Proofs.Node.Blind
import ValuePattern.Table
/-!
The laws of the equality of values. It is symmetric and transitive, but a value with a NaN in it is not
equal to itself. Objects are compared as their names, in order, and as arrays of what stands under
them. Equal values differ in the sign of zeros only, which no pattern looks at.
-/
namespace ValuePattern

namespace Double

variable {x y z : Double}

theorem beq_self_iff : (x == x) = true ↔ x ≠ nan := by
  cases x with
  | nan => decide
  | number a m => simp [number_beq_number]

theorem beq_symm (h : (x == y) = true) : (y == x) = true := by
  cases x <;> cases y <;> first | exact h | skip
  rename_i a m b n
  obtain ⟨rfl, hsign⟩ := number_beq_number.mp h
  exact number_beq_number.mpr ⟨rfl, hsign.imp_left Eq.symm⟩

theorem ne_nan_of_beq (h : (x == y) = true) : x ≠ nan := by
  rintro rfl
  cases y <;> cases h

theorem sameUpToZeroSign_of_beq (h : (x == y) = true) : x.SameUpToZeroSign y :=
  (beq_iff_sameUpToZeroSign (ne_nan_of_beq h)).mp (beq_symm h)

theorem beq_trans (h : (x == y) = true) (h' : (y == z) = true) : (x == z) = true := by
  rw [(sameUpToZeroSign_of_beq h).beq_eq z]
  exact h'

end Double

namespace Value

variable {u v w : Value} {xs ys zs : List Value}

theorem array_beq_array :
    (array xs == array ys) = true ↔ List.Forall₂ (fun x y => (x == y) = true) xs ys := by
  induction xs generalizing ys with
  | nil => cases ys <;> simp [BEq.beq, equal, equalItems]
  | cons x xs ih =>
    cases ys with
    | nil => simp [BEq.beq, equal, equalItems]
    | cons y ys =>
      rw [List.forall₂_cons, ← ih]
      simp [BEq.beq, equal, equalItems]

theorem object_beq_object {xs ys : List (String × Value)} :
    (object xs == object ys) = true ↔ Entries.keys xs = Entries.keys ys ∧
      List.Forall₂ (fun x y => (x == y) = true) (xs.map Prod.snd) (ys.map Prod.snd) := by
  induction xs generalizing ys with
  | nil => cases ys <;> simp [BEq.beq, equal, equalFields, Entries.keys]
  | cons x xs ih =>
    cases ys with
    | nil => simp [BEq.beq, equal, equalFields, Entries.keys]
    | cons y ys =>
      have htail : equalFields xs ys = true ↔ _ := ih
      have hcons : (object (x :: xs) == object (y :: ys)) =
          (x.1 == y.1 && x.2 == y.2 && equalFields xs ys) := rfl
      rw [hcons, Bool.and_eq_true, Bool.and_eq_true, htail, beq_iff_eq]
      simp only [Entries.keys, List.map_cons, List.forall₂_cons, List.cons.injEq]
      tauto

/-- What equal values have in common. -/
inductive Agree : Value → Value → Prop
  | missing : Agree .missing .missing
  | null : Agree .null .null
  | boolean {truth : Bool} : Agree (.boolean truth) (.boolean truth)
  | number {x y : Double} : (x == y) = true → Agree (.number x) (.number y)
  | string {text : String} : Agree (.string text) (.string text)
  | array {xs ys : List Value} : List.Forall₂ (fun x y => (x == y) = true) xs ys →
      Agree (.array xs) (.array ys)
  /-- the names are the same in the same order -/
  | object {xs ys : List (String × Value)} : Entries.keys xs = Entries.keys ys →
      List.Forall₂ (fun x y => (x == y) = true) (xs.map Prod.snd) (ys.map Prod.snd) →
      Agree (.object xs) (.object ys)
  | function {f : FunctionRef} : Agree (.function f) (.function f)

theorem agree_of_beq (h : (v == w) = true) : v.Agree w := by
  -- values of different kinds are not equal
  cases v <;> cases w <;> try cases h
  case missing.missing.refl => exact .missing
  case null.null.refl => exact .null
  case boolean.boolean a b =>
    obtain rfl : a = b := eq_of_beq h
    exact .boolean
  case number.number x y => exact .number h
  case string.string s t =>
    obtain rfl : s = t := eq_of_beq h
    exact .string
  case array.array xs ys => exact .array (array_beq_array.mp h)
  case object.object xs ys =>
    obtain ⟨hkeys, hfields⟩ := object_beq_object.mp h
    exact .object hkeys hfields
  case function.function f g =>
    obtain rfl : f = g := eq_of_beq h
    exact .function

theorem function_beq_iff {f : FunctionRef} : (function f == v) = true ↔ v = function f := by
  constructor
  · intro h
    cases agree_of_beq h
    rfl
  · rintro rfl
    exact beq_self_eq_true f

/-- A value is equal to itself exactly if there is no NaN in it. -/
theorem beq_self_iff : (v == v) = true ↔ v.NaNFree := by
  rw [NaNFree]
  induction v using Value.induction with
  | number x =>
    rw [everywhere_leaf rfl, ne_eq, number.injEq]
    exact Double.beq_self_iff
  | array items ih =>
    rw [everywhere_array, array_beq_array, List.forall₂_same, and_iff_right (by simp)]
    exact forall₂_congr ih
  | object fields ih =>
    rw [everywhere_object, object_beq_object, List.forall₂_same, List.forall_mem_map,
      and_iff_right rfl, and_iff_right (by simp)]
    exact forall₂_congr ih
  | _ =>
    rw [everywhere_leaf rfl]
    simp [BEq.beq, equal]

theorem beq_symm (h : (v == w) = true) : (w == v) = true := by
  have flip {xs ys : List Value} (ih : ∀ x ∈ xs, ∀ {y : Value}, (x == y) = true → (y == x) = true)
      (hitems : List.Forall₂ (fun x y => (x == y) = true) xs ys) :
      List.Forall₂ (fun x y => (x == y) = true) ys xs := by
    induction hitems with
    | nil => exact .nil
    | cons hfirst _ ihrest =>
      obtain ⟨ihfirst, ih⟩ := List.forall_mem_cons.mp ih
      exact .cons (ihfirst hfirst) (ihrest ih)
  induction v using Value.induction generalizing w with
  | array items ih =>
    cases agree_of_beq h with
    | array hitems => exact array_beq_array.mpr (flip ih hitems)
  | object fields ih =>
    cases agree_of_beq h with
    | object hkeys hfields =>
      exact object_beq_object.mpr ⟨hkeys.symm, flip (List.forall_mem_map.mpr ih) hfields⟩
  | number x =>
    cases agree_of_beq h with
    | number h => exact Double.beq_symm h
  | _ =>
    cases agree_of_beq h
    exact h

theorem beq_trans (h : (u == v) = true) (h' : (v == w) = true) : (u == w) = true := by
  have chain {xs ys zs : List Value}
      (ih : ∀ x ∈ xs, ∀ {y z : Value}, (x == y) = true → (y == z) = true → (x == z) = true)
      (hitems : List.Forall₂ (fun x y => (x == y) = true) xs ys)
      (hitems' : List.Forall₂ (fun x y => (x == y) = true) ys zs) :
      List.Forall₂ (fun x y => (x == y) = true) xs zs := by
    induction hitems generalizing zs with
    | nil => exact hitems'
    | cons hfirst _ ihrest =>
      obtain ⟨ihfirst, ih⟩ := List.forall_mem_cons.mp ih
      cases hitems' with
      | cons hfirst' hrest' => exact .cons (ihfirst hfirst hfirst') (ihrest ih hrest')
  induction u using Value.induction generalizing v w with
  | array items ih =>
    cases agree_of_beq h with
    | array hitems =>
      cases agree_of_beq h' with
      | array hitems' => exact array_beq_array.mpr (chain ih hitems hitems')
  | object fields ih =>
    cases agree_of_beq h with
    | object hkeys hfields =>
      cases agree_of_beq h' with
      | object hkeys' hfields' =>
        have hvalues := chain (List.forall_mem_map.mpr ih) hfields hfields'
        exact object_beq_object.mpr ⟨hkeys.trans hkeys', hvalues⟩
  | number x =>
    cases agree_of_beq h with
    | number h =>
      cases agree_of_beq h' with
      | number h' => exact Double.beq_trans h h'
  | _ =>
    cases agree_of_beq h
    exact h'

theorem beq_comm : (v == w) = (w == v) := Bool.eq_iff_iff.mpr ⟨beq_symm, beq_symm⟩

theorem sameOutside_of_beq (h : (v == w) = true) : v.SameOutside w := by
  cases agree_of_beq h with
  | number h => exact .number (Double.sameUpToZeroSign_of_beq h)
  | _ => constructor

end Value

namespace Node

variable {α : Type} {v w : Value}

/-- No pattern sees a difference between equal values. -/
theorem blindTo_of_beq (n : Node α) (h : (v == w) = true) : n.BlindTo v w := by
  induction n using Node.induction generalizing v w with
  | array mark elements isOpen ih =>
    cases v with
    | array xs =>
      cases Value.agree_of_beq h with
      | array hitems =>
        refine .array (.inl hitems.length_eq) fun i x v w hx hv hw => ?_
        obtain ⟨hlt, rfl⟩ := List.getElem?_eq_some_iff.mp hv
        obtain ⟨hlt', rfl⟩ := List.getElem?_eq_some_iff.mp hw
        exact ih x (List.mem_of_getElem? hx) (hitems.get hlt hlt')
    | _ => exact .outside rfl (Value.sameOutside_of_beq h)
  | object mark pairs isOpen ih =>
    cases v with
    | object xs =>
      cases Value.agree_of_beq h with
      | @object _ ys hkeys hfields =>
        have hlength := congrArg List.length hkeys
        rw [Entries.length_keys, Entries.length_keys] at hlength
        refine .object (.inl hlength) (fun p _ => by rw [hkeys]) fun p hp v w hv hw => ?_
        obtain ⟨w', hw', hequal⟩ := Entries.exists_get?_of_forall₂ hkeys hfields hv
        obtain rfl := Option.some.inj (hw'.symm.trans hw)
        exact (ih p hp).2 hequal
    | _ => exact .outside rfl (Value.sameOutside_of_beq h)
  | rest mark => exact .rest
  | _ => exact .outside rfl (Value.sameOutside_of_beq h)

end Node

/-- Equality is symmetric and transitive; a value is equal to itself exactly if there is no NaN in it,
a function exactly to references to itself, and objects with their order of fields; and every
pattern matches equal values with the same answer, an error included. -/
theorem Value.beq_laws (u v w : Value) :
    (u == v) = (v == u) ∧
    ((u == v) = true → (v == w) = true → (u == w) = true) ∧
    ((v == v) = true ↔ v.NaNFree) ∧
    (∀ f : FunctionRef, (function f == v) = true ↔ v = function f) ∧
    (∀ xs ys : List (String × Value), (object xs == object ys) = true ↔
      Entries.keys xs = Entries.keys ys ∧
        List.Forall₂ (fun x y => (x == y) = true) (xs.map Prod.snd) (ys.map Prod.snd)) ∧
    ((v == w) = true → ∀ p : Pattern, p.accepts v = p.accepts w) := by
  refine ⟨beq_comm, beq_trans, beq_self_iff, fun f => function_beq_iff,
    fun xs ys => object_beq_object, fun h p => ?_⟩
  rw [Pattern.accepts, Pattern.accepts]
  cases p.root with
  | none => rfl
  | some root =>
    have hblind := root.blindTo_of_beq h
    exact Node.accepts_eq_of_findings_eq (Node.findings_eq_of_blindTo hblind)

/-- Zeros of both signs are equal, and no pattern tells them apart. -/
theorem Value.beq_laws_zeros :
    let zero (negative : Bool) : Value :=
      .object [("zero", .number (.number negative .zero)), ("f", .function 0)]
    (zero false == zero true) = true ∧ (zero true == zero false) = true ∧
      (zero false == zero false) = true ∧
      ∀ p : Pattern, p.accepts (zero true) = p.accepts (zero false) := by
  intro zero
  have hlaws := beq_laws (zero false) (zero true) (zero false)
  exact ⟨rfl, rfl, hlaws.2.1 rfl rfl, hlaws.2.2.2.2.2 rfl⟩

end ValuePattern
