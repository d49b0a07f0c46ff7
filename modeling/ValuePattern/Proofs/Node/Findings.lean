import ValuePattern.Proofs.Node.KeySet
import ValuePattern.Proofs.Node.Parts
/-!
What matching finds. A visit goes through a pattern depth first, the entries of an array or object in
the order of the pattern, and each node meets a value there or finds that a field is absent. Whether
the node fits is a check of this node alone, an array or object being checked for its size only. A
visit makes all its checks; matching stops at the first that does not pass, and what that one found
is the answer.
-/
namespace ValuePattern

/-- What the check of one node finds. -/
inductive Finding where
  /-- the check passes -/
  | fits
  /-- the check fails -/
  | differs
  /-- there is a function, which cannot be checked -/
  | function
  deriving DecidableEq, Repr

namespace Finding

/-- The finding of a comparison. -/
def ofBool : Bool → Finding
  | true => fits
  | false => differs

/-- An array or object may not have fewer entries than a pattern declares, and more only where the
pattern is open. -/
def ofSize (actual declared : Nat) (isOpen : Bool) : Finding :=
  if actual < declared then differs
  else if declared < actual ∧ isOpen = false then differs
  else fits

/-- One finding is made, and no other of a given kind before it. -/
def FoundBefore (first other : Finding) (found : List Finding) : Prop :=
  ∃ before after, found = before ++ first :: after ∧ other ∉ before

/-- The answer that findings lead to when they are gone through in order. -/
def verdict : List Finding → Except Unsupported Bool
  | [] => .ok true
  | fits :: later => verdict later
  | differs :: _ => .ok false
  | function :: _ => .error ⟨.function⟩

variable {first other finding : Finding} {found : List Finding}

theorem not_foundBefore_nil : ¬ FoundBefore first other [] := by
  simp [FoundBefore]

theorem foundBefore_cons :
    FoundBefore first other (finding :: found) ↔
      finding = first ∨ finding ≠ other ∧ FoundBefore first other found := by
  constructor
  · rintro ⟨before, after, heq, hother⟩
    cases before with
    | nil => exact .inl (List.cons.inj heq).1
    | cons head before =>
      obtain ⟨rfl, rfl⟩ := List.cons.inj heq
      obtain ⟨hhead, hbefore⟩ := not_or.mp (mt List.mem_cons.mpr hother)
      exact .inr ⟨Ne.symm hhead, before, after, rfl, hbefore⟩
  · rintro (rfl | ⟨hne, before, after, rfl, hother⟩)
    · exact ⟨[], found, rfl, List.not_mem_nil⟩
    · exact ⟨finding :: before, after, rfl, mt List.mem_cons.mp (not_or.mpr ⟨Ne.symm hne, hother⟩)⟩

theorem verdict_ofBool (b : Bool) : verdict [ofBool b] = .ok b := by
  cases b <;> rfl

/-- Findings behind others count only if all of those are good. -/
theorem verdict_append_of_true {later : List Finding} (h : verdict found = .ok true) :
    verdict (found ++ later) = verdict later := by
  induction found with
  | nil => rfl
  | cons finding found ih =>
    cases finding with
    | fits => exact ih h
    | differs => simp [verdict] at h
    | function => simp [verdict] at h

theorem verdict_append_of_ne_true {later : List Finding} (h : verdict found ≠ .ok true) :
    verdict (found ++ later) = verdict found := by
  induction found with
  | nil => exact absurd rfl h
  | cons finding found ih =>
    cases finding with
    | fits => exact ih h
    | differs => rfl
    | function => rfl

theorem verdict_eq_true_iff :
    verdict found = .ok true ↔ differs ∉ found ∧ function ∉ found := by
  induction found with
  | nil => simp [verdict]
  | cons finding found ih => cases finding <;> simp [verdict, ih]

theorem verdict_eq_false_iff :
    verdict found = .ok false ↔ FoundBefore differs function found := by
  induction found with
  | nil => simp [verdict, not_foundBefore_nil]
  | cons finding found ih => cases finding <;> simp [verdict, foundBefore_cons, ih]

theorem verdict_eq_error_iff {u : Unsupported} :
    verdict found = .error u ↔ u = ⟨.function⟩ ∧ FoundBefore function differs found := by
  induction found with
  | nil => simp [verdict, not_foundBefore_nil]
  | cons finding found ih => cases finding <;> simp [verdict, foundBefore_cons, ih, eq_comm]

end Finding

namespace Node

variable {α : Type}

/-- What the check of a node alone finds at a value, or where a field is absent. -/
def finding : Node α → Option Value → Finding
  | _, none => .differs
  | rest _, some _ => .fits
  | _, some (.function _) => .function
  | boolean _ a, some (.boolean b) => .ofBool (a == b)
  | number _ x, some (.number y) => .ofBool (y == x)
  | string _ s, some (.string t) => .ofBool (s == t)
  | missing _, some .missing => .fits
  | null _, some .null => .fits
  | array _ elements isOpen, some (.array items) => .ofSize items.length elements.length isOpen
  | object _ pairs isOpen, some (.object fields) => .ofSize fields.length pairs.length isOpen
  | _, some _ => .differs

mutual

/-- The nodes that a visit comes to, in order, with what each of them meets. -/
def visits : Node α → Option Value → List (Node α × Option Value)
  | array mark elements isOpen, some (.array items) =>
    (array mark elements isOpen, some (.array items)) :: visitsItems elements items
  | object mark pairs isOpen, some (.object fields) =>
    (object mark pairs isOpen, some (.object fields)) :: visitsFields pairs fields
  | node, met => [(node, met)]

/-- A visit to elements and items, as far as both go. -/
def visitsItems : List (Node α) → List Value → List (Node α × Option Value)
  | element :: elements, item :: items =>
    visits element (some item) ++ visitsItems elements items
  | _, _ => []

/-- A visit to pairs, each with the field under its name. -/
def visitsFields : List (Node α × Node α) → List (String × Value) → List (Node α × Option Value)
  | [], _ => []
  | (key, node) :: pairs, fields =>
    visits node (Entries.get? key.keyName fields) ++ visitsFields pairs fields

end

/-- What the checks of nodes find at what they meet. -/
def checks (visited : List (Node α × Option Value)) : List Finding :=
  visited.map fun (node, met) => node.finding met

/-- What a visit to a pattern finds at a value. -/
def findings (n : Node α) (v : Value) : List Finding := checks (n.visits (some v))

theorem checks_append (visited later : List (Node α × Option Value)) :
    checks (visited ++ later) = checks visited ++ checks later := List.map_append

/-- Where a field is absent there is one check, and it fails. -/
theorem visits_none (n : Node α) : n.visits none = [(n, none)] := by
  cases n <;> rfl

theorem verdict_ofSize (actual declared : Nat) (isOpen : Bool) (later : List Finding) :
    Finding.verdict (.ofSize actual declared isOpen :: later) =
      if sizeFits actual declared isOpen then Finding.verdict later else .ok false := by
  by_cases hfits : sizeFits actual declared isOpen = true
  · obtain ⟨hle, hclosed⟩ := sizeFits_iff.mp hfits
    have hless : ¬ actual < declared := Nat.not_lt.mpr hle
    have hmore : ¬ (declared < actual ∧ isOpen = false) := by
      rintro ⟨hlt, hopen⟩
      exact absurd (hclosed hopen) (Nat.not_le.mpr hlt)
    rw [Finding.ofSize, if_neg hless, if_neg hmore, if_pos hfits, Finding.verdict]
  · rw [if_neg hfits, Finding.ofSize]
    split
    · rfl
    split
    · rfl
    · rename_i hless hmore
      refine absurd (sizeFits_iff.mpr ⟨Nat.not_lt.mp hless, fun hopen => ?_⟩) hfits
      exact Nat.not_lt.mp fun hlt => hmore ⟨hlt, hopen⟩

section Verdict

variable {elements : List (Node α)} {pairs : List (Node α × Node α)}

theorem acceptsItems_eq_verdict
    (h : ∀ x ∈ elements, ∀ v, x.accepts v = Finding.verdict (x.findings v)) (items : List Value) :
    acceptsItems elements items = Finding.verdict (checks (visitsItems elements items)) := by
  induction elements generalizing items with
  | nil => rfl
  | cons x elements ih =>
    obtain ⟨hx, hxs⟩ := List.forall_mem_cons.mp h
    cases items with
    | nil => rfl
    | cons v items =>
      rw [acceptsItems, visitsItems, checks_append, ← findings, hx]
      split
      · rename_i hfits
        rw [Finding.verdict_append_of_true hfits, ih hxs]
      · rename_i hstop
        rw [Finding.verdict_append_of_ne_true hstop]

theorem acceptsFields_eq_verdict
    (h : ∀ p ∈ pairs, ∀ v, p.2.accepts v = Finding.verdict (p.2.findings v))
    (fields : List (String × Value)) :
    acceptsFields pairs fields = Finding.verdict (checks (visitsFields pairs fields)) := by
  induction pairs with
  | nil => rfl
  | cons p pairs ih =>
    obtain ⟨key, node⟩ := p
    obtain ⟨hp, hps⟩ := List.forall_mem_cons.mp h
    rw [acceptsFields, visitsFields, checks_append]
    cases Entries.get? key.keyName fields with
    | none =>
      rw [visits_none]
      rfl
    | some v =>
      dsimp only
      rw [← findings, hp]
      split
      · rename_i hfits
        rw [Finding.verdict_append_of_true hfits, ih hps]
      · rename_i hstop
        rw [Finding.verdict_append_of_ne_true hstop]

/-- Matching answers with the first finding that is not good. -/
theorem accepts_eq_verdict (n : Node α) (v : Value) :
    n.accepts v = Finding.verdict (n.findings v) := by
  induction n using Node.induction generalizing v with
  | array mark elements isOpen ih =>
    cases v with
    | array items =>
      have hfindings : (Node.array mark elements isOpen).findings (.array items) =
          .ofSize items.length elements.length isOpen :: checks (visitsItems elements items) := rfl
      rw [accepts, hfindings, verdict_ofSize, acceptsItems_eq_verdict ih]
    | _ => rfl
  | object mark pairs isOpen ih =>
    cases v with
    | object fields =>
      have hfindings : (Node.object mark pairs isOpen).findings (.object fields) =
          .ofSize fields.length pairs.length isOpen :: checks (visitsFields pairs fields) := rfl
      rw [accepts, hfindings, verdict_ofSize, acceptsFields_eq_verdict fun p hp => (ih p hp).2]
    | _ => rfl
  | _ => cases v <;> first | rfl | exact (Finding.verdict_ofBool _).symm

end Verdict

/-- Functions and only functions are findings of their own, and the rest marker does not look. -/
theorem finding_eq_function_iff {n : Node α} {met : Option Value} :
    n.finding met = .function ↔ n.isRest = false ∧ ∃ f, met = some (.function f) := by
  have hbool (b : Bool) : Finding.ofBool b ≠ .function := by cases b <;> simp [Finding.ofBool]
  have hsize (actual declared : Nat) (isOpen : Bool) :
      Finding.ofSize actual declared isOpen ≠ .function := by
    simp only [Finding.ofSize]
    split
    · simp
    split <;> simp
  cases met with
  | none => simp [finding]
  | some v => cases n <;> cases v <;> simp [finding, isRest, hbool, hsize]

end Node

end ValuePattern
