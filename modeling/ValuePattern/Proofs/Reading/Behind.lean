import ValuePattern.Proofs.Grammar.Soundness
/-!
What comes behind a part of an array or an object. Behind an entry or a rest marker stands a
delimiter, and behind a comma more entries are read; behind a key stand the colon, the content and a
delimiter. The entries that were read before are carried along, as a loop carries them.
-/
namespace ValuePattern.Place

open Grammar

section Entries

variable {α : Type}

/-- Entries in front of those that a reading comes to. -/
def extend (as : List α) (o : Except Fault (List α × Bool) × Place) :
    Except Fault (List α × Bool) × Place :=
  (o.1.map fun (bs, isOpen) => (as ++ bs, isOpen), o.2)

theorem extend_nil (o : Except Fault (List α × Bool) × Place) : extend [] o = o := by
  obtain ⟨result, q⟩ := o
  cases result <;> rfl

theorem extend_extend (as bs : List α) (o : Except Fault (List α × Bool) × Place) :
    extend as (extend bs o) = extend (as ++ bs) o := by
  obtain ⟨result, q⟩ := o
  cases result with
  | error e => rfl
  | ok entries => simp [extend, Except.map]

/-- What comes of the delimiter behind an entry or a rest marker, in front of which the entries `as`
were read. -/
def behindEntry (closing : Char) (otherwise : Cause)
    (read : Place → Except Fault (List α × Bool) × Place) (as : List α) (rest? : Option Span)
    (p : Place) : Except Fault (List α × Bool) × Place :=
  match (p.delimiter closing otherwise rest?).outcome with
  | (.error e, q) => (.error e, q)
  | (.ok true, q) => (.ok (as, rest?.isSome), q)
  | (.ok false, q) => extend as (read q)

/-- Behind a rest marker no comma is passed, so nothing is read there. -/
theorem behindEntry_some (closing : Char) (otherwise : Cause)
    (read : Place → Except Fault (List α × Bool) × Place) (as : List α) (s : Span) (p : Place) :
    behindEntry closing otherwise read as (some s) p =
      ((p.delimiter closing otherwise (some s)).outcome.1.map fun _ => (as, true),
        (p.delimiter closing otherwise (some s)).outcome.2) := by
  rw [behindEntry]
  cases hd : (p.delimiter closing otherwise (some s)).outcome with
  | mk result q =>
    cases result with
    | error e => rfl
    | ok isClosed =>
      obtain rfl : isClosed = true := (delimiter_sound hd).1 rfl
      rfl

end Entries

variable {p : Place} {n : Nat} {c : Char} {t : List Char}

/-- The items, read where the items `xs` were read before. -/
theorem extend_items (xs : List (Node Span)) (p : Place) :
    extend xs (items p).outcome =
      match (p.value .element).outcome with
      | (.error e, q) => (.error e, q)
      | (.ok x, q) =>
        if x.isBare ']' then (.ok (xs, false), q)
        else if x.isBare ',' then (.error ⟨.missingElement, p.pos, x.mark.stop⟩, q)
        else if x.isRest then
          behindEntry ']' .unterminatedElement (fun q => (items q).outcome) xs (some x.mark) q
        else
          behindEntry ']' .unterminatedElement (fun q => (items q).outcome) (xs ++ [x]) none q := by
  rw [items_outcome]
  obtain ⟨result, q⟩ := (p.value .element).outcome
  cases result with
  | error e => rfl
  | ok x =>
    dsimp only
    split
    · simp [extend, Except.map]
    split
    · rfl
    cases hrest : x.isRest with
    | true =>
      obtain ⟨s, hs⟩ := Option.isSome_iff_exists.mp (Node.isSome_restSpan? hrest)
      rw [if_pos rfl, behindEntry_some, hs, Node.mark_eq_of_restSpan? hs]
      obtain ⟨result, r⟩ := (q.delimiter ']' .unterminatedElement (some s)).outcome
      cases result <;> simp [extend, Except.map]
    | false =>
      rw [if_neg Bool.false_ne_true, behindEntry, Node.restSpan?_eq_none hrest]
      obtain ⟨result, r⟩ := (q.delimiter ']' .unterminatedElement none).outcome
      cases result with
      | error e => rfl
      | ok isClosed =>
        cases isClosed with
        | true => rfl
        | false => exact extend_extend xs [x] (items r).outcome

/-- What comes of the content of a field, and of what stands behind it. -/
def behindColon (ps : List (Node Span × Node Span)) (name : Node Span) (p : Place) :
    Except Fault (List (Node Span × Node Span) × Bool) × Place :=
  match (p.value .fieldValue).outcome with
  | (.error e, q) => (.error e, q)
  | (.ok x, q) =>
    if x.isBare '}' then (.error ⟨.missingValue, p.pos, x.mark.stop⟩, q)
    else
      behindEntry '}' .unterminatedField (fun q => (fields q).outcome) (ps ++ [(name, x)]) none q

/-- The content of a field and the fields behind it, read where the fields `ps` were read before. -/
theorem extend_content (ps : List (Node Span × Node Span)) (name : Node Span) (p : Place) :
    extend ps
      (match (p.value .fieldValue).outcome with
        | (.error e, q) => (.error e, q)
        | (.ok x, q) =>
          if x.isBare '}' then (.error ⟨.missingValue, p.pos, x.mark.stop⟩, q)
          else
            match (q.delimiter '}' .unterminatedField none).outcome with
            | (.error e, r) => (.error e, r)
            | (.ok isClosed, r) =>
              if isClosed then (.ok ([(name, x)], false), r)
              else
                ((fields r).outcome.1.map fun (pairs, isOpen) => ((name, x) :: pairs, isOpen),
                  (fields r).outcome.2)) =
      behindColon ps name p := by
  rw [behindColon]
  obtain ⟨result, q⟩ := (p.value .fieldValue).outcome
  cases result with
  | error e => rfl
  | ok x =>
    dsimp only
    split
    · rfl
    rw [behindEntry]
    obtain ⟨result, r⟩ := (q.delimiter '}' .unterminatedField none).outcome
    cases result with
    | error e => rfl
    | ok isClosed =>
      cases isClosed with
      | true => rfl
      | false => exact extend_extend ps [(name, x)] (fields r).outcome

/-- What comes of a field behind its key. -/
def behindKey (ps : List (Node Span × Node Span)) (name : Node Span) (p : Place) :
    Except Fault (List (Node Span × Node Span) × Bool) × Place :=
  match p.colon.outcome with
  | (.error e, q) => (.error e, q)
  | (.ok (), q) => behindColon ps name q

/-- The fields, read where the fields `ps` were read before. -/
theorem extend_fields (ps : List (Node Span × Node Span)) (h : p.skipSpace = ⟨n, c :: t⟩) :
    extend ps (fields p).outcome =
      if c = '}' then (.ok (ps, false), ⟨n + 1, t⟩)
      else
        match p.skipSpace.key.outcome with
        | (.error e, q) => (.error e, q)
        | (.ok name, q) =>
          if name.isRest then
            behindEntry '}' .unterminatedField (fun q => (fields q).outcome) ps (some name.mark) q
          else behindKey ps name q := by
  rw [fields_outcome h]
  split
  · simp [extend, Except.map]
  obtain ⟨result, q⟩ := p.skipSpace.key.outcome
  cases result with
  | error e => rfl
  | ok name =>
    dsimp only
    cases hrest : name.isRest with
    | true =>
      obtain ⟨s, hs⟩ := Option.isSome_iff_exists.mp (Node.isSome_restSpan? hrest)
      rw [if_pos rfl, if_pos rfl, behindEntry_some, hs, Node.mark_eq_of_restSpan? hs]
      obtain ⟨result, r⟩ := (q.delimiter '}' .unterminatedField (some s)).outcome
      cases result <;> simp [extend, Except.map]
    | false =>
      rw [if_neg Bool.false_ne_true, if_neg Bool.false_ne_true, behindKey]
      obtain ⟨result, u⟩ := q.colon.outcome
      cases result with
      | error e => rfl
      | ok _ => exact extend_content ps name u

end ValuePattern.Place
