import ValuePattern.Proofs.Reading.Outcome
/-!
The ways in which the readings of entries succeed. Elements and fields are read one at a time, and a
reading closes at once, ends at a rest marker, ends behind a last entry, or goes on behind an entry
and a comma.
-/
namespace ValuePattern

theorem Node.restSpan?_eq_none {x : Node Span} (h : x.isRest = false) : x.restSpan? = none := by
  cases x <;> simp_all [isRest, restSpan?]

theorem Node.isSome_restSpan? {x : Node Span} (h : x.isRest = true) : x.restSpan?.isSome := by
  cases x <;> simp_all [isRest, restSpan?]

theorem Node.mark_eq_of_restSpan? {x : Node Span} {s : Span} (h : x.restSpan? = some s) :
    x.mark = s := by
  cases x <;> simp_all [restSpan?, mark]

theorem Node.isBare_singleton {c d : Char} {n : Nat} :
    Node.isBare d (.string ⟨n, n + 1⟩ (String.singleton c)) = true ↔ c = d := by
  simp [isBare, Span.length, ← String.toList_inj]

namespace Place

/-- An element is read: a value that is no bracket, comma or rest marker. -/
structure ElementStep (p : Place) (x : Node Span) (v : Place) : Prop where
  value : (p.value .element).outcome = (.ok x, v)
  isBracket : x.isBare ']' = false
  isComma : x.isBare ',' = false
  isRest : x.isRest = false

/-- The ways in which the elements of an array are read. -/
inductive ItemsStep (p : Place) : List (Node Span) → Bool → Place → Prop
  | close {x q} : (p.value .element).outcome = (.ok x, q) → x.isBare ']' = true →
      ItemsStep p [] false q
  | rest {x v closed q} : (p.value .element).outcome = (.ok x, v) → x.isRest = true →
      (v.delimiter ']' .unterminatedElement x.restSpan?).outcome = (.ok closed, q) →
      ItemsStep p [] true q
  | last {x v q} : ElementStep p x v →
      (v.delimiter ']' .unterminatedElement none).outcome = (.ok true, q) →
      ItemsStep p [x] false q
  | next {x v r xs isOpen q} : ElementStep p x v →
      (v.delimiter ']' .unterminatedElement none).outcome = (.ok false, r) →
      (items r).outcome = (.ok (xs, isOpen), q) → ItemsStep p (x :: xs) isOpen q

/-- A field is read: a key that is no rest marker, a colon, and content that is no brace. -/
inductive FieldStep (p : Place) : Node Span → Node Span → Place → Prop
  | intro {key x n c t r u v} : p.skipSpace = ⟨n, c :: t⟩ → c ≠ '}' →
      p.skipSpace.key.outcome = (.ok key, r) → key.isRest = false →
      r.colon.outcome = (.ok (), u) → (u.value .fieldValue).outcome = (.ok x, v) →
      x.isBare '}' = false → FieldStep p key x v

/-- The ways in which the fields of an object are read. -/
inductive FieldsStep (p : Place) : List (Node Span × Node Span) → Bool → Place → Prop
  | close {n t} : p.skipSpace = ⟨n, '}' :: t⟩ → FieldsStep p [] false ⟨n + 1, t⟩
  | rest {key n c t r closed q} : p.skipSpace = ⟨n, c :: t⟩ → c ≠ '}' →
      p.skipSpace.key.outcome = (.ok key, r) → key.isRest = true →
      (r.delimiter '}' .unterminatedField key.restSpan?).outcome = (.ok closed, q) →
      FieldsStep p [] true q
  | last {key x v q} : FieldStep p key x v →
      (v.delimiter '}' .unterminatedField none).outcome = (.ok true, q) →
      FieldsStep p [(key, x)] false q
  | next {key x v r ps isOpen q} : FieldStep p key x v →
      (v.delimiter '}' .unterminatedField none).outcome = (.ok false, r) →
      (fields r).outcome = (.ok (ps, isOpen), q) → FieldsStep p ((key, x) :: ps) isOpen q

variable {p q : Place} {isOpen : Bool}

theorem items_eq_ok_iff {xs : List (Node Span)} :
    (items p).outcome = (.ok (xs, isOpen), q) ↔ ItemsStep p xs isOpen q := by
  rw [items_outcome]
  constructor
  · intro h
    split at h
    · simp at h
    rename_i x v hv
    split at h
    · rename_i hbracket
      obtain ⟨hentries, rfl⟩ := Reading.ok_inj h
      obtain ⟨rfl, rfl⟩ := Prod.mk.inj hentries
      exact .close hv hbracket
    split at h
    · simp at h
    rename_i hbracket hcomma
    split at h
    · simp at h
    rename_i closed r hd
    split at h
    · rename_i hrest
      obtain ⟨hentries, rfl⟩ := Reading.ok_inj h
      obtain ⟨rfl, rfl⟩ := Prod.mk.inj hentries
      exact .rest hv hrest hd
    rename_i hrest
    simp only [Bool.not_eq_true] at hbracket hcomma hrest
    have helement : ElementStep p x v := ⟨hv, hbracket, hcomma, hrest⟩
    rw [Node.restSpan?_eq_none hrest] at hd
    split at h
    · rename_i hclosed
      obtain ⟨hentries, rfl⟩ := Reading.ok_inj h
      obtain ⟨rfl, rfl⟩ := Prod.mk.inj hentries
      exact .last helement (hclosed ▸ hd)
    · rename_i hclosed
      obtain ⟨_, hr, heq⟩ := Reading.map_outcome_eq_ok.mp h
      obtain ⟨rfl, rfl⟩ := Prod.mk.inj heq
      exact .next helement (by simpa [hclosed] using hd) hr
  · intro h
    cases h with
    | close hv hbracket => simp [hv, hbracket]
    | @rest x v closed q hv hrest hd =>
      have hbare (c : Char) : x.isBare c = false := by cases x <;> simp_all [Node.isRest, Node.isBare]
      simp [hv, hrest, hd, hbare]
    | last hx hd =>
      simp [hx.value, hx.isBracket, hx.isComma, hx.isRest, Node.restSpan?_eq_none hx.isRest, hd]
    | next hx hd hr =>
      simp [hx.value, hx.isBracket, hx.isComma, hx.isRest, Node.restSpan?_eq_none hx.isRest, hd, hr,
        Except.map]

theorem fields_eq_ok_iff {ps : List (Node Span × Node Span)} :
    (fields p).outcome = (.ok (ps, isOpen), q) ↔ FieldsStep p ps isOpen q := by
  constructor
  · intro h
    obtain hnil | ⟨n, c, t, hp⟩ := p.skipSpace_cases
    · simp [fields_outcome_nil hnil] at h
    · rw [fields_outcome hp] at h
      split at h
      · rename_i hc
        subst hc
        obtain ⟨hentries, rfl⟩ := Reading.ok_inj h
        obtain ⟨rfl, rfl⟩ := Prod.mk.inj hentries
        exact .close hp
      rename_i hc
      split at h
      · simp at h
      rename_i key r hk
      split at h
      · rename_i hrest
        obtain ⟨_, hd, heq⟩ := Reading.map_outcome_eq_ok.mp h
        obtain ⟨rfl, rfl⟩ := Prod.mk.inj heq
        exact .rest hp hc hk hrest hd
      rename_i hrest
      split at h
      · simp at h
      rename_i u hu
      split at h
      · simp at h
      rename_i x v hx
      split at h
      · simp at h
      rename_i hbrace
      simp only [Bool.not_eq_true] at hrest hbrace
      have hfield : FieldStep p key x v := .intro hp hc hk hrest hu hx hbrace
      split at h
      · simp at h
      rename_i closed w hd
      split at h
      · rename_i hclosed
        obtain ⟨hentries, rfl⟩ := Reading.ok_inj h
        obtain ⟨rfl, rfl⟩ := Prod.mk.inj hentries
        exact .last hfield (hclosed ▸ hd)
      · rename_i hclosed
        obtain ⟨_, hw, heq⟩ := Reading.map_outcome_eq_ok.mp h
        obtain ⟨rfl, rfl⟩ := Prod.mk.inj heq
        exact .next hfield (by simpa [hclosed] using hd) hw
  · intro h
    cases h with
    | close hp => simp [fields_outcome hp]
    | rest hp hc hk hrest hd => simp [fields_outcome hp, hc, hk, hrest, hd, Except.map]
    | last hfield hd =>
      cases hfield with
      | intro hp hc hk hrest hu hx hbrace =>
        simp [fields_outcome hp, hc, hk, hrest, hu, hx, hbrace, hd]
    | next hfield hd hr =>
      cases hfield with
      | intro hp hc hk hrest hu hx hbrace =>
        simp [fields_outcome hp, hc, hk, hrest, hu, hx, hbrace, hd, hr, Except.map]

end Place

end ValuePattern
