import ValuePattern.Proofs.Reading.Passage
import ValuePattern.Proofs.Reading.Step
/-!
The ways in which readings fail, each with the fault that it gives. A token blames itself or what is
missing behind it; entries fail at one entry, at the delimiter behind it, or later.
-/
namespace ValuePattern

namespace Reading

variable {p q : Place} {α β : Type}

theorem error_inj {e f : Fault} (h : ((.error e, p) : Except Fault α × Place) = (.error f, q)) :
    e = f ∧ p = q := by
  obtain ⟨hresult, hplace⟩ := Prod.mk.inj h
  exact ⟨Except.error.inj hresult, hplace⟩

/-- What is made of a result fails exactly if the reading does. -/
theorem map_outcome_eq_error {r : Except Fault α × Place} {f : α → β} {e : Fault} :
    (r.1.map f, r.2) = (.error e, q) ↔ r = (.error e, q) := by
  obtain ⟨result, place⟩ := r
  cases result with
  | error e' => simp [Except.map]
  | ok a => simp [Except.map]

end Reading

namespace Place

open Text

/-- The ways in which a value fails to be read. -/
inductive ValueFailure (s : Stop) (p : Place) : Fault → Prop
  | empty : p.skipSpace.ahead = [] → ValueFailure s p ⟨.emptyField .value, p.pos, p.skipSpace.pos⟩
  | string {n c t} : p.skipSpace = ⟨n, c :: t⟩ → c = '"' ∨ c = '\'' → c ∉ t →
      ValueFailure s p ⟨.unterminatedString c, n, Place.stop ⟨n, c :: t⟩⟩
  | array {n t f q} : p.skipSpace = ⟨n, '[' :: t⟩ → (items ⟨n + 1, t⟩).outcome = (.error f, q) →
      ValueFailure s p f
  | object {n t f q} : p.skipSpace = ⟨n, '{' :: t⟩ → (fields ⟨n + 1, t⟩).outcome = (.error f, q) →
      ValueFailure s p f
  | literal {n c t token} : p.skipSpace = ⟨n, c :: t⟩ → token = trimEnd (s.token (c :: t)) →
      Node.ofToken? ⟨n, n + token.length⟩ token = none → token ≠ [] →
      ValueFailure s p ⟨.invalidLiteral (String.ofList token), n, n + token.length⟩

/-- The ways in which the elements of an array fail to be read. -/
inductive ItemsFailure (p : Place) : Fault → Prop
  | element {f q} : (p.value .element).outcome = (.error f, q) → ItemsFailure p f
  | comma {x q} : (p.value .element).outcome = (.ok x, q) → x.isBare ',' = true →
      ItemsFailure p ⟨.missingElement, p.pos, x.mark.stop⟩
  | rest {x v f q} : (p.value .element).outcome = (.ok x, v) → x.isRest = true →
      (v.delimiter ']' .unterminatedElement x.restSpan?).outcome = (.error f, q) → ItemsFailure p f
  | delimiter {x v f q} : ElementStep p x v →
      (v.delimiter ']' .unterminatedElement none).outcome = (.error f, q) → ItemsFailure p f
  | later {x v r f q} : ElementStep p x v →
      (v.delimiter ']' .unterminatedElement none).outcome = (.ok false, r) →
      (items r).outcome = (.error f, q) → ItemsFailure p f

/-- A key is read, which may be a rest marker. -/
inductive KeyStep (p : Place) (key : Node Span) (r : Place) : Prop
  | intro {n c t} : p.skipSpace = ⟨n, c :: t⟩ → c ≠ '}' →
      p.skipSpace.key.outcome = (.ok key, r) → KeyStep p key r

/-- The ways in which the fields of an object fail to be read. -/
inductive FieldsFailure (p : Place) : Fault → Prop
  | empty : p.skipSpace.ahead = [] → FieldsFailure p ⟨.emptyField .key, p.pos, p.skipSpace.pos⟩
  | key {n c t f q} : p.skipSpace = ⟨n, c :: t⟩ → p.skipSpace.key.outcome = (.error f, q) →
      FieldsFailure p f
  | rest {key r f q} : KeyStep p key r → key.isRest = true →
      (r.delimiter '}' .unterminatedField key.restSpan?).outcome = (.error f, q) → FieldsFailure p f
  | colon {key r f q} : KeyStep p key r → key.isRest = false → r.colon.outcome = (.error f, q) →
      FieldsFailure p f
  | content {key r u f q} : KeyStep p key r → key.isRest = false → r.colon.outcome = (.ok (), u) →
      (u.value .fieldValue).outcome = (.error f, q) → FieldsFailure p f
  | brace {key r u x q} : KeyStep p key r → key.isRest = false → r.colon.outcome = (.ok (), u) →
      (u.value .fieldValue).outcome = (.ok x, q) → x.isBare '}' = true →
      FieldsFailure p ⟨.missingValue, u.pos, x.mark.stop⟩
  | delimiter {key x v f q} : FieldStep p key x v →
      (v.delimiter '}' .unterminatedField none).outcome = (.error f, q) → FieldsFailure p f
  | later {key x v r f q} : FieldStep p key x v →
      (v.delimiter '}' .unterminatedField none).outcome = (.ok false, r) →
      (fields r).outcome = (.error f, q) → FieldsFailure p f

variable {p q : Place} {n : Nat} {c : Char} {t : List Char} {s : Stop} {f : Fault}

/-- Only a missing quote makes a string fail. -/
theorem string_failure (h : p.skipSpace = ⟨n, c :: t⟩) (hc : c = '"' ∨ c = '\'')
    (ho : p.string.outcome = (.error f, q)) :
    c ∉ t ∧ f = ⟨.unterminatedString c, n, Place.stop ⟨n, c :: t⟩⟩ := by
  by_cases hclosed : c ∈ t
  · obtain ⟨inside, behind, rfl, hi⟩ := List.eq_append_cons_of_mem hclosed
    rw [string_outcome h hc hi] at ho
    simp at ho
  · rw [string_outcome_open h hc hclosed] at ho
    exact ⟨hclosed, (Reading.error_inj ho).1.symm⟩

/-- A token that begins with neither a blank nor a character of its stop is not empty. -/
theorem trimEnd_token_ne_nil (hblank : isBlank c = false) (hc : s.holds c = false) :
    trimEnd (s.token (c :: t)) ≠ [] := by
  intro hnil
  obtain ⟨w, hw, htoken⟩ := trimEnd_append_blanks (s.token (c :: t))
  rw [hnil, Stop.token, List.takeWhile_cons_of_pos (by simpa using hc), List.nil_append] at htoken
  rw [htoken, blanks_cons, hblank] at hw
  exact Bool.noConfusion hw.1

/-- A literal fails by being no word and no number. -/
theorem literal_failure (h : p.skipSpace = ⟨n, c :: t⟩) (hc : s.holds c = false)
    (ho : (p.literal s).outcome = (.error f, q)) :
    let token := trimEnd (s.token (c :: t))
    Node.ofToken? ⟨n, n + token.length⟩ token = none ∧ token ≠ [] ∧
      f = ⟨.invalidLiteral (String.ofList token), n, n + token.length⟩ := by
  intro token
  have hsolid := p.startsSolid_skipSpace
  rw [h, startsSolid_cons] at hsolid
  have hne := trimEnd_token_ne_nil (t := t) hsolid hc
  rw [literal_outcome h] at ho
  dsimp only at ho
  rw [if_neg hne] at ho
  split at ho
  · simp at ho
  · rename_i hnone
    exact ⟨hnone, hne, (Reading.error_inj ho).1.symm⟩

/-- A key fails by having no end. -/
theorem key_failure (h : p.skipSpace = ⟨n, c :: t⟩) (ho : p.key.outcome = (.error f, q)) :
    (c = '"' ∨ c = '\'') ∧ c ∉ t ∧ f = ⟨.unterminatedString c, n, Place.stop ⟨n, c :: t⟩⟩ ∨
      (Place.skipToken .key ⟨n, c :: t⟩).ahead = [] ∧
        f = ⟨.unterminatedKey, n, Place.stop ⟨n, c :: t⟩⟩ := by
  rw [key_outcome h] at ho
  split at ho
  · rename_i hc
    exact .inl ⟨hc, string_failure h hc ho⟩
  split at ho
  · simp at ho
  dsimp only at ho
  split at ho
  · rename_i hnil
    exact .inr ⟨hnil, (Reading.error_inj ho).1.symm⟩
  · simp at ho

theorem colon_failure (ho : p.colon.outcome = (.error f, q)) :
    f = ⟨.expectedColon, p.skipSpace.spot⟩ ∧ ∀ c ∈ p.skipSpace.ahead.head?, c ≠ ':' := by
  obtain hnil | ⟨n, c, t, h⟩ := p.skipSpace_cases
  · rw [colon_outcome_nil hnil] at ho
    exact ⟨(Reading.error_inj ho).1.symm, by simp [hnil]⟩
  · rw [colon_outcome h] at ho
    rw [h]
    split at ho
    · simp at ho
    · rename_i hc
      exact ⟨(Reading.error_inj ho).1.symm, by simpa using hc⟩

/-- A delimiter fails by not being there, or behind a rest marker by being a comma. -/
theorem delimiter_failure {closing : Char} {otherwise : Cause} {rest? : Option Span}
    (ho : (p.delimiter closing otherwise rest?).outcome = (.error f, q)) :
    (f = ⟨otherwise, p.skipSpace.spot⟩ ∧ ∀ c ∈ p.skipSpace.ahead.head?, c ≠ ',' ∧ c ≠ closing) ∨
      ∃ s n t, rest? = some s ∧ p.skipSpace = ⟨n, ',' :: t⟩ ∧
        f = ⟨.restNotLast, s.start, n + 1⟩ := by
  obtain hnil | ⟨n, c, t, h⟩ := p.skipSpace_cases
  · rw [delimiter_outcome_nil hnil] at ho
    exact .inl ⟨(Reading.error_inj ho).1.symm, by simp [hnil]⟩
  · rw [delimiter_outcome h] at ho
    rw [h]
    split at ho
    · simp at ho
    rename_i hclosing
    split at ho
    · rename_i hcomma
      subst hcomma
      cases rest? with
      | none => simp at ho
      | some s => exact .inr ⟨s, n, t, rfl, rfl, (Reading.error_inj ho).1.symm⟩
    · rename_i hcomma
      exact .inl ⟨(Reading.error_inj ho).1.symm, by simpa using ⟨hcomma, hclosing⟩⟩

theorem value_failure (h : (p.value s).outcome = (.error f, q)) : ValueFailure s p f := by
  obtain hnil | ⟨n, c, t, hp⟩ := p.skipSpace_cases
  · rw [value_outcome_nil hnil] at h
    obtain ⟨rfl, -⟩ := Reading.error_inj h
    exact .empty hnil
  · rw [value_outcome hp] at h
    split at h
    · simp at h
    rename_i hholds
    split at h
    · rename_i hc
      obtain ⟨ht, rfl⟩ := string_failure hp hc h
      exact .string hp hc ht
    split at h
    · rename_i hc
      subst hc
      exact .array hp (Reading.map_outcome_eq_error.mp h)
    split at h
    · rename_i hc
      subst hc
      exact .object hp (Reading.map_outcome_eq_error.mp h)
    split at h
    · simp at h
    · obtain ⟨hnone, hne, rfl⟩ := literal_failure hp (by simpa using hholds) h
      exact .literal hp rfl hnone hne

theorem items_failure (h : (items p).outcome = (.error f, q)) : ItemsFailure p f := by
  rw [items_outcome] at h
  split at h
  · rename_i hv
    obtain ⟨rfl, -⟩ := Reading.error_inj h
    exact .element hv
  rename_i x v hv
  split at h
  · simp at h
  rename_i hbracket
  split at h
  · rename_i hcomma
    obtain ⟨rfl, -⟩ := Reading.error_inj h
    exact .comma hv hcomma
  rename_i hcomma
  have element (hrest : x.isRest = false) : ElementStep p x v :=
    ⟨hv, by simpa using hbracket, by simpa using hcomma, hrest⟩
  split at h
  · rename_i hd
    obtain ⟨rfl, -⟩ := Reading.error_inj h
    cases hrest : x.isRest with
    | true => exact .rest hv hrest hd
    | false =>
      rw [Node.restSpan?_eq_none hrest] at hd
      exact .delimiter (element hrest) hd
  rename_i closed r hd
  split at h
  · simp at h
  rename_i hrest
  split at h
  · simp at h
  rename_i hclosed
  simp only [Bool.not_eq_true] at hrest hclosed
  rw [Node.restSpan?_eq_none hrest, hclosed] at hd
  exact .later (element hrest) hd (Reading.map_outcome_eq_error.mp h)

theorem fields_failure (h : (fields p).outcome = (.error f, q)) : FieldsFailure p f := by
  obtain hnil | ⟨n, c, t, hp⟩ := p.skipSpace_cases
  · rw [fields_outcome_nil hnil] at h
    obtain ⟨rfl, -⟩ := Reading.error_inj h
    exact .empty hnil
  rw [fields_outcome hp] at h
  split at h
  · simp at h
  rename_i hc
  split at h
  · rename_i hk
    obtain ⟨rfl, -⟩ := Reading.error_inj h
    exact .key hp hk
  rename_i key r hk
  have hkey : KeyStep p key r := .intro hp hc hk
  split at h
  · rename_i hrest
    exact .rest hkey hrest (Reading.map_outcome_eq_error.mp h)
  rename_i hrest
  simp only [Bool.not_eq_true] at hrest
  split at h
  · rename_i hu
    obtain ⟨rfl, -⟩ := Reading.error_inj h
    exact .colon hkey hrest hu
  rename_i u hu
  split at h
  · rename_i hx
    obtain ⟨rfl, -⟩ := Reading.error_inj h
    exact .content hkey hrest hu hx
  rename_i x v hx
  split at h
  · rename_i hbrace
    obtain ⟨rfl, -⟩ := Reading.error_inj h
    exact .brace hkey hrest hu hx hbrace
  rename_i hbrace
  have hfield : FieldStep p key x v := .intro hp hc hk hrest hu hx (by simpa using hbrace)
  split at h
  · rename_i hd
    obtain ⟨rfl, -⟩ := Reading.error_inj h
    exact .delimiter hfield hd
  rename_i closed w hd
  split at h
  · simp at h
  rename_i hclosed
  simp only [Bool.not_eq_true] at hclosed
  rw [hclosed] at hd
  exact .later hfield hd (Reading.map_outcome_eq_error.mp h)

end Place

end ValuePattern
