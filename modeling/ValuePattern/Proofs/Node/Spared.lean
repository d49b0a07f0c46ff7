import ValuePattern.Proofs.Node.Findings
/-!
Where functions may stand in a value. A visit comes only to what stands in the value, so no function
is met where there is none; and a pattern that matches has not looked at any, so each of them stands
where the pattern does not look. With that the three answers of matching are told apart by what a
visit finds.
-/
namespace ValuePattern.Node

variable {α : Type} {elements : List (Node α)} {pairs : List (Node α × Node α)}
variable {items : List Value} {fields : List (String × Value)} {isOpen : Bool}

section Reached

variable {visit : Node α × Option Value}

theorem exists_of_mem_visitsItems (h : visit ∈ visitsItems elements items) :
    ∃ (i : Nat) (x : Node α) (v : Value), elements[i]? = some x ∧ items[i]? = some v ∧
      visit ∈ x.visits (some v) := by
  induction elements generalizing items with
  | nil => simp [visitsItems] at h
  | cons x elements ih =>
    cases items with
    | nil => simp [visitsItems] at h
    | cons v items =>
      rw [visitsItems, List.mem_append] at h
      rcases h with h | h
      · exact ⟨0, x, v, rfl, rfl, h⟩
      · obtain ⟨i, y, w, hy, hw, hvisit⟩ := ih h
        exact ⟨i + 1, y, w, hy, hw, hvisit⟩

theorem exists_of_mem_visitsFields (h : visit ∈ visitsFields pairs fields) :
    ∃ p ∈ pairs, visit ∈ p.2.visits (Entries.get? p.1.keyName fields) := by
  induction pairs with
  | nil => simp [visitsFields] at h
  | cons p pairs ih =>
    rw [visitsFields, List.mem_append] at h
    rcases h with h | h
    · exact ⟨p, List.mem_cons_self, h⟩
    · obtain ⟨p', hp', hvisit⟩ := ih h
      exact ⟨p', List.mem_cons_of_mem p hp', hvisit⟩

/-- What a visit meets stands in the value that is visited. -/
theorem exists_at?_of_mem_visits {n x : Node α} {v w : Value}
    (h : (x, some w) ∈ n.visits (some v)) : ∃ path, v.at? path = some w := by
  have here {m : Node α} {u : Value} (h : (x, some w) = (m, some u)) : u.at? [] = some w := by
    obtain ⟨-, hw⟩ := Prod.mk.inj h
    exact hw.symm
  induction n using Node.induction generalizing v with
  | array mark elements isOpen ih =>
    cases v with
    | array items =>
      rcases List.mem_cons.mp h with h | h
      · exact ⟨[], here h⟩
      · obtain ⟨i, y, u, hy, hu, hvisit⟩ := exists_of_mem_visitsItems h
        obtain ⟨path, hpath⟩ := ih y (List.mem_of_getElem? hy) hvisit
        have hstep : (Value.array items).child? (.item i) = some u := hu
        exact ⟨.item i :: path, (Value.at?_cons hstep path).trans hpath⟩
    | _ => exact ⟨[], here (List.mem_singleton.mp h)⟩
  | object mark pairs isOpen ih =>
    cases v with
    | object fields =>
      rcases List.mem_cons.mp h with h | h
      · exact ⟨[], here h⟩
      · obtain ⟨p, hp, hvisit⟩ := exists_of_mem_visitsFields h
        cases hu : Entries.get? p.1.keyName fields with
        | none =>
          rw [hu, visits_none] at hvisit
          simp at hvisit
        | some u =>
          rw [hu] at hvisit
          obtain ⟨path, hpath⟩ := (ih p hp).2 hvisit
          have hstep : (Value.object fields).child? (.field p.1.keyName) = some u := hu
          exact ⟨.field p.1.keyName :: path, (Value.at?_cons hstep path).trans hpath⟩
    | _ => exact ⟨[], here (List.mem_singleton.mp h)⟩
  | _ => exact ⟨[], here (List.mem_singleton.mp h)⟩

/-- Matching a value without functions is answered. -/
theorem exists_accepts_eq_ok (n : Node α) {v : Value}
    (h : ∀ path f, v.at? path ≠ some (.function f)) : ∃ b, n.accepts v = .ok b := by
  cases haccepts : n.accepts v with
  | ok b => exact ⟨b, rfl⟩
  | error u =>
    rw [accepts_eq_verdict, Finding.verdict_eq_error_iff] at haccepts
    obtain ⟨-, before, after, heq, -⟩ := haccepts
    have hfound : Finding.function ∈ n.findings v := by simp [heq]
    obtain ⟨⟨x, met⟩, hvisit, hfinding⟩ := List.mem_map.mp hfound
    obtain ⟨-, f, rfl⟩ := finding_eq_function_iff.mp hfinding
    obtain ⟨path, hpath⟩ := exists_at?_of_mem_visits hvisit
    exact absurd hpath (h path f)

end Reached

/-- A pattern does not look at what stands at the end of a path: the path leads under a rest marker,
to an item behind the elements of an open array, or to a field that is not named. An object pattern
that leaves out a name is open, or else it names a field twice. -/
inductive Spares : Node α → List Value.Step → Prop
  | rest {mark path} : Spares (.rest mark) path
  | surplus {mark elements i path} : elements.length ≤ i →
      Spares (.array mark elements true) (.item i :: path)
  | element {mark elements isOpen i x path} : elements[i]? = some x → Spares x path →
      Spares (.array mark elements isOpen) (.item i :: path)
  | unnamed {mark pairs isOpen name path} : name ∉ fieldNames pairs →
      isOpen = true ∨ ¬ (fieldNames pairs).Nodup →
      Spares (.object mark pairs isOpen) (.field name :: path)
  | named {mark pairs isOpen name path} : name ∈ fieldNames pairs →
      (∀ p ∈ pairs, p.1.keyName = name → Spares p.2 path) →
      Spares (.object mark pairs isOpen) (.field name :: path)

variable {mark : α}

theorem acceptsItems_iff :
    acceptsItems elements items = .ok true ↔ ∀ (i : Nat) (x : Node α) (v : Value),
      elements[i]? = some x → items[i]? = some v → x.accepts v = .ok true := by
  induction elements generalizing items with
  | nil => simp [acceptsItems]
  | cons x elements ih =>
    cases items with
    | nil => simp [acceptsItems]
    | cons v items =>
      rw [acceptsItems]
      split
      · rename_i hfits
        rw [ih]
        constructor
        · intro h i
          cases i with
          | zero => simpa using hfits
          | succ i => exact h i
        · exact fun h i => h (i + 1)
      · rename_i hstop
        exact iff_of_false hstop fun h => hstop (h 0 x v rfl rfl)

/-- Matching an array is a count and a match of every element with the item at its place. -/
theorem accepts_array_iff :
    accepts (array mark elements isOpen) (.array items) = .ok true ↔
      sizeFits items.length elements.length isOpen = true ∧
        ∀ (i : Nat) (x : Node α) (v : Value),
          elements[i]? = some x → items[i]? = some v → x.accepts v = .ok true := by
  rw [accepts]
  split
  · rename_i hsize
    rw [acceptsItems_iff, and_iff_right hsize]
  · rename_i hsize
    simp [hsize]

/-- An object that is matched has a field that the pattern does not name only if the pattern is open
or names a field twice. -/
theorem Fulfilled.isOpen_or_not_nodup {name : String} (h : Fulfilled pairs fields)
    (hsize : sizeFits fields.length pairs.length isOpen = true)
    (hkey : name ∈ Entries.keys fields) (hname : name ∉ fieldNames pairs) :
    isOpen = true ∨ ¬ (fieldNames pairs).Nodup := by
  by_contra hneither
  obtain ⟨hclosed, hnodup⟩ := not_or.mp hneither
  have hlen : fields.length ≤ pairs.length := (sizeFits_iff.mp hsize).2 (by simpa using hclosed)
  refine hname (subset_of_length_le h.fieldNames_subset ?_ hkey)
  rwa [List.dedup_eq_self.mpr (not_not.mp hnodup), fieldNames, List.length_map, Entries.length_keys]

/-- A pattern that matches spares every function in the value. -/
theorem spares_of_accepts {n : Node α} {v : Value} {path : List Value.Step} {f : FunctionRef}
    (haccepts : n.accepts v = .ok true) (hpath : v.at? path = some (.function f)) :
    n.Spares path := by
  induction path generalizing n v with
  | nil =>
    obtain rfl : v = .function f := Option.some.inj hpath
    cases n with
    | rest mark => exact .rest
    | _ => simp [accepts] at haccepts
  | cons step path ih =>
    rw [Value.at?, Option.bind_eq_some_iff] at hpath
    obtain ⟨w, hstep, hpath⟩ := hpath
    cases n with
    | rest mark => exact .rest
    | array mark elements isOpen =>
      cases v with
      | array items =>
        cases step with
        | field name => simp [Value.child?] at hstep
        | item i =>
          obtain ⟨hsize, hitems⟩ := accepts_array_iff.mp haccepts
          cases hx : elements[i]? with
          | some x => exact .element hx (ih (hitems i x w hx hstep) hpath)
          | none =>
            have hbehind : elements.length ≤ i := List.getElem?_eq_none_iff.mp hx
            obtain ⟨hlt, -⟩ := List.getElem?_eq_some_iff.mp hstep
            have hclosed := (sizeFits_iff.mp hsize).2
            cases isOpen with
            | true => exact .surplus hbehind
            | false => exact absurd (hclosed rfl) (by omega)
      | _ => simp [accepts] at haccepts hstep
    | object mark pairs isOpen =>
      cases v with
      | object fields =>
        cases step with
        | item i => simp [Value.child?] at hstep
        | field name =>
          obtain ⟨hsize, hfulfilled⟩ := accepts_object_iff.mp haccepts
          by_cases hname : name ∈ fieldNames pairs
          · refine .named hname fun p hp hpname => ?_
            obtain ⟨u, hu, hfits⟩ := hfulfilled p hp
            rw [hpname] at hu
            obtain rfl : u = w := Option.some.inj (hu.symm.trans hstep)
            exact ih hfits hpath
          · have hkey := Entries.mem_keys_iff.mpr ⟨w, hstep⟩
            exact .unnamed hname (hfulfilled.isOpen_or_not_nodup hsize hkey hname)
      | _ => simp [accepts] at haccepts hstep
    | _ => cases v <;> simp [accepts, Value.child?] at haccepts hstep

/-- The three answers of matching. A pattern matches if a visit makes no check that fails and meets no
function that it looks at; meeting one before any check fails is an error; and failing a check before
that is a mismatch. So there is no error without a function, and a match spares all of them. -/
theorem accepts_iff_findings (n : Node α) (v : Value) :
    (n.accepts v = .ok true ↔ .differs ∉ n.findings v ∧ .function ∉ n.findings v) ∧
    (∀ u, n.accepts v = .error u ↔
      u = ⟨.function⟩ ∧ Finding.FoundBefore .function .differs (n.findings v)) ∧
    (n.accepts v = .ok false ↔ Finding.FoundBefore .differs .function (n.findings v)) ∧
    ((∀ path f, v.at? path ≠ some (.function f)) → ∃ b, n.accepts v = .ok b) ∧
    (n.accepts v = .ok true → ∀ path f, v.at? path = some (.function f) → n.Spares path) := by
  refine ⟨?_, fun u => ?_, ?_, n.exists_accepts_eq_ok, fun h path f => spares_of_accepts h⟩
  · rw [accepts_eq_verdict, Finding.verdict_eq_true_iff]
  · rw [accepts_eq_verdict, Finding.verdict_eq_error_iff]
  · rw [accepts_eq_verdict, Finding.verdict_eq_false_iff]

/-- An open pattern looks at neither an item behind its elements nor a field that it does not name,
and a value without functions is answered. -/
theorem accepts_iff_findings_open :
    let n : Node Unit := .object () [(.string () "a", .array () [.null ()] true)] true
    let v : Value := .object [("a", .array [.null, .function 0]), ("b", .function 1)]
    n.accepts v = .ok true ∧
      v.at? [.field "a", .item 1] = some (.function 0) ∧ n.Spares [.field "a", .item 1] ∧
      v.at? [.field "b"] = some (.function 1) ∧ n.Spares [.field "b"] ∧
      (∀ path f, Value.null.at? path ≠ some (.function f)) ∧ ∃ b, n.accepts .null = .ok b := by
  intro n v
  have hmatch : n.accepts v = .ok true := by rfl
  have hspares := (accepts_iff_findings n v).2.2.2.2 hmatch
  have hnull (path : List Value.Step) (f : FunctionRef) :
      Value.null.at? path ≠ some (.function f) := by
    cases path <;> simp [Value.at?, Value.child?]
  exact ⟨hmatch, rfl, hspares _ _ rfl, rfl, hspares _ _ rfl, hnull,
    (accepts_iff_findings n .null).2.2.2.1 hnull⟩

end ValuePattern.Node
