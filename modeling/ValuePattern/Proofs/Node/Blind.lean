import ValuePattern.Proofs.Node.Findings
import ValuePattern.Proofs.Value.Equivalence
/-!
What a pattern cannot see. Two values may differ in all that stands under a rest marker, in the items
of an array behind the elements of an open pattern, and in the fields of an object that an open pattern
does not name. A visit to the one finds what a visit to the other finds, check by check, so matching
gives both the same answer. That holds also of what the order of fields and the sign of zero may change.
-/
namespace ValuePattern.Node

variable {α : Type}

/-- Two arrays, or two objects, have equally many entries, or else the pattern is open and both have
the entries that it declares. -/
def SameExtent (declared : Nat) (isOpen : Bool) (a b : Nat) : Prop :=
  a = b ∨ isOpen = true ∧ declared ≤ a ∧ declared ≤ b

/-- Whether a visit goes on to entries: to the items of an array or the fields of an object. -/
def goesInto : Node α → Value → Bool
  | array .., .array _ => true
  | object .., .object _ => true
  | _, _ => false

/-- Two values differ only in what a pattern does not look at. -/
inductive BlindTo : Node α → Value → Value → Prop
  /-- nothing is looked at under a rest marker -/
  | rest {mark : α} {v w : Value} : BlindTo (.rest mark) v w
  /-- the values are looked at from outside only -/
  | outside {n : Node α} {v w : Value} : n.goesInto v = false → v.SameOutside w → BlindTo n v w
  /-- no item that stands at the place of an element makes a difference -/
  | array {mark : α} {elements : List (Node α)} {isOpen : Bool} {xs ys : List Value} :
      SameExtent elements.length isOpen xs.length ys.length →
      (∀ (i : Nat) (x : Node α) (v w : Value),
        elements[i]? = some x → xs[i]? = some v → ys[i]? = some w → BlindTo x v w) →
      BlindTo (.array mark elements isOpen) (.array xs) (.array ys)
  /-- each name is absent from both objects or stands in both for fields that make no difference -/
  | object {mark : α} {pairs : List (Node α × Node α)} {isOpen : Bool}
      {xs ys : List (String × Value)} :
      SameExtent pairs.length isOpen xs.length ys.length →
      (∀ p ∈ pairs, p.1.keyName ∈ Entries.keys xs ↔ p.1.keyName ∈ Entries.keys ys) →
      (∀ p ∈ pairs, ∀ v w, Entries.get? p.1.keyName xs = some v →
        Entries.get? p.1.keyName ys = some w → BlindTo p.2 v w) →
      BlindTo (.object mark pairs isOpen) (.object xs) (.object ys)

variable {elements : List (Node α)} {pairs : List (Node α × Node α)} {n : Node α} {v w : Value}

theorem SameExtent.ofSize_eq {declared a b : Nat} {isOpen : Bool}
    (h : SameExtent declared isOpen a b) :
    Finding.ofSize a declared isOpen = Finding.ofSize b declared isOpen := by
  rcases h with rfl | ⟨rfl, ha, hb⟩
  · rfl
  · simp [Finding.ofSize, Nat.not_lt.mpr ha, Nat.not_lt.mpr hb]

theorem SameExtent.pred {declared a b : Nat} {isOpen : Bool}
    (h : SameExtent (declared + 1) isOpen (a + 1) (b + 1)) : SameExtent declared isOpen a b := by
  rcases h with h | ⟨hopen, ha, hb⟩
  · exact .inl (Nat.succ.inj h)
  · exact .inr ⟨hopen, Nat.le_of_succ_le_succ ha, Nat.le_of_succ_le_succ hb⟩

theorem goesInto_eq_of_sameOutside (n : Node α) (h : v.SameOutside w) :
    n.goesInto v = n.goesInto w := by
  cases h <;> cases n <;> rfl

theorem visits_of_goesInto_eq_false (h : n.goesInto v = false) :
    n.visits (some v) = [(n, some v)] := by
  cases n <;> cases v <;> first | rfl | cases h

/-- From outside, a node finds the same in two values that agree there. -/
theorem finding_eq_of_sameOutside (hinto : n.goesInto v = false) (h : v.SameOutside w) :
    n.finding (some v) = n.finding (some w) := by
  cases h with
  | number hsame =>
    cases n with
    | number mark z => exact congrArg Finding.ofBool (hsame.beq_eq z)
    | _ => rfl
  | array =>
    cases n with
    | array mark elements isOpen => cases hinto
    | _ => rfl
  | object =>
    cases n with
    | object mark pairs isOpen => cases hinto
    | _ => rfl
  | function => cases n <;> rfl
  | _ => rfl

theorem findings_eq_of_sameOutside (hinto : n.goesInto v = false) (h : v.SameOutside w) :
    n.findings v = n.findings w := by
  have hinto' : n.goesInto w = false := by
    rwa [← goesInto_eq_of_sameOutside n h]
  rw [findings, findings, visits_of_goesInto_eq_false hinto, visits_of_goesInto_eq_false hinto']
  exact congrArg (fun found => [found]) (finding_eq_of_sameOutside hinto h)

theorem checks_visitsItems_eq {isOpen : Bool} {xs ys : List Value}
    (hextent : SameExtent elements.length isOpen xs.length ys.length)
    (h : ∀ (i : Nat) (x : Node α) (v w : Value),
      elements[i]? = some x → xs[i]? = some v → ys[i]? = some w → x.findings v = x.findings w) :
    checks (visitsItems elements xs) = checks (visitsItems elements ys) := by
  induction elements generalizing xs ys with
  | nil => rfl
  | cons x elements ih =>
    cases xs with
    | nil =>
      cases ys with
      | nil => rfl
      | cons w ys => simp [SameExtent] at hextent
    | cons v xs =>
      cases ys with
      | nil => simp [SameExtent] at hextent
      | cons w ys =>
        rw [visitsItems, visitsItems, checks_append, checks_append, ← findings, ← findings]
        rw [h 0 x v w rfl rfl rfl, ih hextent.pred fun i => h (i + 1)]

theorem checks_visitsFields_eq {xs ys : List (String × Value)}
    (hkeys : ∀ p ∈ pairs, p.1.keyName ∈ Entries.keys xs ↔ p.1.keyName ∈ Entries.keys ys)
    (h : ∀ p ∈ pairs, ∀ v w, Entries.get? p.1.keyName xs = some v →
      Entries.get? p.1.keyName ys = some w → p.2.findings v = p.2.findings w) :
    checks (visitsFields pairs xs) = checks (visitsFields pairs ys) := by
  induction pairs with
  | nil => rfl
  | cons p pairs ih =>
    obtain ⟨hkey, hkeys⟩ := List.forall_mem_cons.mp hkeys
    obtain ⟨hp, hps⟩ := List.forall_mem_cons.mp h
    rw [Entries.mem_keys_iff, Entries.mem_keys_iff] at hkey
    rw [visitsFields, visitsFields, checks_append, checks_append, ih hkeys hps]
    congr 1
    cases hv : Entries.get? p.1.keyName xs with
    | none =>
      cases hw : Entries.get? p.1.keyName ys with
      | none => rfl
      | some w => simp [hv, hw] at hkey
    | some v =>
      cases hw : Entries.get? p.1.keyName ys with
      | none => simp [hv, hw] at hkey
      | some w => exact hp v w hv hw

/-- A visit finds the same, check by check, where two values differ in what it does not look at. -/
theorem findings_eq_of_blindTo (h : n.BlindTo v w) : n.findings v = n.findings w := by
  induction h with
  | rest => cases v <;> cases w <;> rfl
  | outside hinto hsame => exact findings_eq_of_sameOutside hinto hsame
  -- the size is checked first, then the entries
  | array hextent hitems ih =>
    exact congrArg₂ List.cons hextent.ofSize_eq (checks_visitsItems_eq hextent ih)
  | object hextent hkeys hfields ih =>
    exact congrArg₂ List.cons hextent.ofSize_eq (checks_visitsFields_eq hkeys ih)

/-- No pattern sees a difference between equivalent values. -/
theorem blindTo_of_equivalent (n : Node α) (hnames : v.Everywhere Value.DistinctNames)
    (h : v.Equivalent w) : n.BlindTo v w := by
  induction n using Node.induction generalizing v w with
  | array mark elements isOpen ih =>
    cases v with
    | array xs =>
      cases h with
      | array hitems =>
        refine .array (.inl hitems.length_eq) fun i x v w hx hv hw => ?_
        obtain ⟨hlt, rfl⟩ := List.getElem?_eq_some_iff.mp hv
        obtain ⟨hlt', rfl⟩ := List.getElem?_eq_some_iff.mp hw
        have hbelow := (Value.everywhere_array.mp hnames).2 xs[i] (List.getElem_mem hlt)
        exact ih x (List.mem_of_getElem? hx) hbelow (hitems.get hlt hlt')
    | _ => exact .outside rfl h.sameOutside
  | object mark pairs isOpen ih =>
    cases v with
    | object xs =>
      obtain ⟨hnodup, hbelow⟩ := Value.everywhere_object.mp hnames
      cases w with
      | object ys =>
        have hperm := h.keys_perm
        have hlength := hperm.length_eq
        rw [Entries.length_keys, Entries.length_keys] at hlength
        refine .object (.inl hlength) (fun p _ => hperm.mem_iff) fun p hp v w hv hw => ?_
        obtain ⟨w', hw', hequivalent⟩ := h.exists_get? hnodup hv
        obtain rfl := Option.some.inj (hw'.symm.trans hw)
        exact (ih p hp).2 (hbelow _ (Entries.mem_of_get? hv)) hequivalent
      | _ => cases h
    | _ => exact .outside rfl h.sameOutside
  | rest mark => exact .rest
  | _ => exact .outside rfl h.sameOutside

theorem accepts_eq_of_findings_eq (h : n.findings v = n.findings w) :
    n.accepts v = n.accepts w := by
  rw [accepts_eq_verdict, accepts_eq_verdict, h]

/-- Two values that differ only in what a pattern does not look at are matched with the same answer,
an error included. -/
theorem accepts_eq_of_blindTo (n : Node α) (v w : Value) (h : n.BlindTo v w) :
    n.accepts v = n.accepts w := accepts_eq_of_findings_eq (findings_eq_of_blindTo h)

/-- Behind the elements of an open array and beside the names of an open object, and under a rest
marker, functions may come and go; where an error is met, it is met in both. -/
theorem accepts_eq_of_blindTo_surplus :
    let n : Node Unit := .object () [(.string () "a", .array () [.rest (), .null ()] true)] true
    let v : Value := .object [("a", .array [.function 0, .function 1, .null]), ("b", .function 2)]
    let w : Value := .object [("c", .null), ("a", .array [.null, .function 3])]
    n.BlindTo v w ∧ n.accepts v = n.accepts w ∧ n.accepts v = .error ⟨.function⟩ := by
  intro n v w
  have hitems : (Node.array () [.rest (), .null ()] true).BlindTo
      (.array [.function 0, .function 1, .null]) (.array [.null, .function 3]) := by
    refine .array (.inr ⟨rfl, by decide, by decide⟩) fun i x v w hx hv hw => ?_
    match i with
    | 0 =>
      obtain rfl := Option.some.inj hx
      exact .rest
    | 1 =>
      obtain rfl := Option.some.inj hx
      obtain rfl := Option.some.inj hv
      obtain rfl := Option.some.inj hw
      exact .outside rfl .function
    | i + 2 => cases hx
  have hblind : n.BlindTo v w := by
    refine .object (.inr ⟨rfl, by decide, by decide⟩) (by decide) fun p hp v w hv hw => ?_
    obtain rfl := List.mem_singleton.mp hp
    obtain rfl := Option.some.inj hv
    obtain rfl := Option.some.inj hw
    exact hitems
  exact ⟨hblind, accepts_eq_of_blindTo n v w hblind, rfl⟩

end ValuePattern.Node
