import Mathlib.Data.List.TakeWhile
import ValuePattern.Node.Reader
/-!
One equation for each reading: what it comes to and where it ends, in terms of the readings that it
calls. A reading of a tree depends on its place only through what is there once blanks are skipped,
but for the span of a fault at the end of the text, and that is how the equations are stated.
-/
namespace ValuePattern

/-- What a reading came to and the place that it reached. -/
def Reading.outcome {p : Place} {α : Type} (r : Reading p α) : Except Fault α × Place :=
  (r.result, r.place)

namespace Reading

variable {p q : Place} {α β : Type}

@[simp] theorem outcome_mk (result : Except Fault α) (q : Place)
    (le : q.ahead.length ≤ p.ahead.length) : (mk result q le).outcome = (result, q) := rfl

@[simp] theorem outcome_done (a : α) (q : Place) (le : q.ahead.length ≤ p.ahead.length) :
    (done a q le : Reading p α).outcome = (.ok a, q) := rfl

@[simp] theorem outcome_fail (cause : Cause) (span : Span) (q : Place)
    (le : q.ahead.length ≤ p.ahead.length) :
    (fail cause span q le : Reading p α).outcome = (.error ⟨cause, span⟩, q) := rfl

@[simp] theorem outcome_before (r : Reading q α) (le : q.ahead.length ≤ p.ahead.length)
    (f : α → Place → β) :
    (r.before le f).outcome = (r.outcome.1.map fun a => f a r.outcome.2, r.outcome.2) := rfl

theorem ok_inj {a b : α} (h : ((.ok a, p) : Except Fault α × Place) = (.ok b, q)) : a = b ∧ p = q := by
  obtain ⟨hresult, hplace⟩ := Prod.mk.inj h
  exact ⟨Except.ok.inj hresult, hplace⟩

/-- What is made of a result succeeds exactly if the reading does. -/
theorem map_outcome_eq_ok {r : Except Fault α × Place} {f : α → β} {b : β} :
    (r.1.map f, r.2) = (.ok b, q) ↔ ∃ a, r = (.ok a, q) ∧ f a = b := by
  obtain ⟨result, place⟩ := r
  cases result with
  | error e => simp [Except.map]
  | ok a =>
    simp only [Except.map, Prod.mk.injEq, Except.ok.injEq]
    constructor
    · rintro ⟨hb, hq⟩
      exact ⟨a, ⟨rfl, hq⟩, hb⟩
    · rintro ⟨_, ⟨rfl, hq⟩, hb⟩
      exact ⟨hb, hq⟩

end Reading

namespace Place

open Reading

variable {p q : Place} {n : Nat} {c : Char} {t : List Char} {s : Stop}

theorem skipSpace_cases (p : Place) :
    p.skipSpace.ahead = [] ∨ ∃ n c t, p.skipSpace = ⟨n, c :: t⟩ := by
  cases hahead : p.skipSpace.ahead with
  | nil => exact .inl rfl
  | cons c t => exact .inr ⟨p.skipSpace.pos, c, t, by rw [← hahead]⟩

/-- A reading leaves no more ahead than it found. -/
theorem length_le_of_outcome {α : Type} {q : Place} {r : Reading p α} {result : Except Fault α}
    (h : r.outcome = (result, q)) : q.ahead.length ≤ p.ahead.length := by
  obtain ⟨-, rfl⟩ := Prod.mk.inj h
  exact r.le

theorem literal_outcome_nil (h : p.skipSpace.ahead = []) :
    (p.literal s).outcome = (.error ⟨.emptyField .value, p.pos, p.skipSpace.pos⟩, p.skipSpace) := by
  rw [literal]
  split
  · rfl
  · rename_i hc
    simp [h] at hc

/-- A literal is what stands before the stop, without the blanks that it ends in. -/
theorem literal_outcome (h : p.skipSpace = ⟨n, c :: t⟩) :
    (p.literal s).outcome =
      let token := Text.trimEnd (s.token (c :: t))
      let r := Place.skipToken s ⟨n, c :: t⟩
      if token = [] then (.error ⟨.emptyField .value, Place.spot ⟨n, c :: t⟩⟩, r)
      else
        match Node.ofToken? ⟨n, n + token.length⟩ token with
        | some node => (.ok node, r)
        | none => (.error ⟨.invalidLiteral (String.ofList token), n, n + token.length⟩, r) := by
  rw [literal]
  split
  · rename_i hc
    simp [h] at hc
  · simp only [h, apply_ite outcome, List.isEmpty_iff, outcome_fail]
    congr 1
    generalize Node.ofToken? _ _ = node?
    cases node? <;> rfl

theorem string_outcome_nil (h : p.skipSpace.ahead = []) :
    p.string.outcome = (.error ⟨.emptyField .string, p.pos, p.skipSpace.pos⟩, p.skipSpace) := by
  rw [string]
  split
  · rfl
  · rename_i hc
    simp [h] at hc

/-- A string begins with one of the two quotes. -/
theorem string_outcome_of_ne (h : p.skipSpace = ⟨n, c :: t⟩) (hc : c ≠ '"') (hc' : c ≠ '\'') :
    p.string.outcome =
      (.error ⟨.unexpectedOpening .string c, Place.spot ⟨n, c :: t⟩⟩, ⟨n, c :: t⟩) := by
  have hahead : p.skipSpace.ahead = c :: t := by rw [h]
  have hquote : ¬(c == '"' || c == '\'') = true := by simp [hc, hc']
  rw [string]
  split
  · rename_i hnil
    simp [hahead] at hnil
  · rename_i d u hd
    obtain ⟨rfl, rfl⟩ := List.cons.inj (hahead.symm.trans hd)
    rw [if_neg hquote, outcome_fail, h]

/-- A string ends at the next quote like its first. -/
theorem string_outcome {quote : Char} {inside behind : List Char}
    (h : p.skipSpace = ⟨n, quote :: (inside ++ quote :: behind)⟩)
    (hq : quote = '"' ∨ quote = '\'') (hi : quote ∉ inside) :
    p.string.outcome =
      (.ok (.string ⟨n, n + inside.length + 2⟩ (String.ofList inside)),
        ⟨n + inside.length + 2, behind⟩) := by
  obtain rfl : p.skipSpace.pos = n := by rw [h]
  have hahead : p.skipSpace.ahead = quote :: (inside ++ quote :: behind) := by rw [h]
  have before : ∀ d ∈ inside, (d != quote) = true := by
    intro d hd
    simpa using fun he : d = quote => hi (he ▸ hd)
  have htake : (inside ++ quote :: behind).takeWhile (· != quote) = inside := by
    rw [List.takeWhile_append_of_pos before]
    simp
  have hdrop : (inside ++ quote :: behind).dropWhile (· != quote) = quote :: behind := by
    rw [List.dropWhile_append_of_pos before]
    simp
  rw [string]
  split
  · rename_i hc
    simp [hahead] at hc
  · rename_i d u hc
    obtain ⟨rfl, rfl⟩ := List.cons.inj (hahead.symm.trans hc)
    have hquote : (quote == '"' || quote == '\'') = true := by simpa using hq
    simp only [hquote, if_true]
    split
    · rename_i hn
      simp [hdrop] at hn
    · rename_i e v hv
      obtain ⟨rfl, rfl⟩ := List.cons.inj (hdrop.symm.trans hv)
      simp only [htake, outcome_done]

/-- Without that quote ahead a string has no end. -/
theorem string_outcome_open {quote : Char} (h : p.skipSpace = ⟨n, quote :: t⟩)
    (hq : quote = '"' ∨ quote = '\'') (ht : quote ∉ t) :
    p.string.outcome =
      (.error ⟨.unterminatedString quote, n, Place.stop ⟨n, quote :: t⟩⟩, ⟨n + 1, t⟩) := by
  have hahead : p.skipSpace.ahead = quote :: t := by rw [h]
  have hdrop : t.dropWhile (· != quote) = [] := by
    rw [List.dropWhile_eq_nil_iff]
    intro d hd
    simpa using fun he : d = quote => ht (he ▸ hd)
  rw [string]
  split
  · rename_i hc
    simp [hahead] at hc
  · rename_i d u hc
    obtain ⟨rfl, rfl⟩ := List.cons.inj (hahead.symm.trans hc)
    have hquote : (quote == '"' || quote == '\'') = true := by simpa using hq
    simp only [hquote, if_true]
    split
    · simp only [h, outcome_fail]
    · rename_i e v hv
      simp [hdrop] at hv

theorem key_outcome_nil (h : p.skipSpace.ahead = []) :
    p.key.outcome = (.error ⟨.emptyField .key, p.pos, p.skipSpace.pos⟩, p.skipSpace) := by
  rw [key]
  split
  · rfl
  · rename_i hc
    simp [h] at hc

/-- A key is told by its first characters. -/
theorem key_outcome (h : p.skipSpace = ⟨n, c :: t⟩) :
    p.key.outcome =
      if c = '"' ∨ c = '\'' then p.string.outcome
      else if restMarker <+: c :: t then
        (.ok (.rest ⟨n, n + 3⟩), ⟨n + 3, (c :: t).drop 3⟩)
      else
        let r := Place.skipToken .key ⟨n, c :: t⟩
        if r.ahead = [] then
          (.error ⟨.unterminatedKey, n, Place.stop ⟨n, c :: t⟩⟩, ⟨n, c :: t⟩)
        else (.ok (.string ⟨n, r.pos⟩ (String.ofList (Stop.key.token (c :: t)))), r) := by
  rw [key]
  split
  · rename_i hc
    simp [h] at hc
  · rename_i d u hc
    obtain ⟨rfl, rfl⟩ : d = c ∧ u = t := by simpa [h] using hc.symm
    simp only [h, apply_ite outcome, beq_iff_eq, Bool.or_eq_true, outcome_done, outcome_fail,
      List.isPrefixOf_iff_prefix, List.isEmpty_iff]

theorem colon_outcome (h : p.skipSpace = ⟨n, c :: t⟩) :
    p.colon.outcome =
      if c = ':' then (.ok (), ⟨n + 1, t⟩)
      else (.error ⟨.expectedColon, Place.spot ⟨n, c :: t⟩⟩, ⟨n, c :: t⟩) := by
  rw [colon]
  split
  · rename_i hc
    simp [h] at hc
  · rename_i d u hc
    obtain ⟨rfl, rfl⟩ : d = c ∧ u = t := by simpa [h] using hc.symm
    simp only [h, apply_ite outcome, beq_iff_eq, outcome_done, outcome_fail]

theorem colon_outcome_nil (h : p.skipSpace.ahead = []) :
    p.colon.outcome = (.error ⟨.expectedColon, p.skipSpace.spot⟩, p.skipSpace) := by
  rw [colon]
  split
  · rfl
  · rename_i hc
    simp [h] at hc

theorem delimiter_outcome {closing : Char} {otherwise : Cause} {rest? : Option Span}
    (h : p.skipSpace = ⟨n, c :: t⟩) :
    (p.delimiter closing otherwise rest?).outcome =
      if c = closing then (.ok true, ⟨n + 1, t⟩)
      else if c = ',' then
        rest?.elim (.ok false, ⟨n + 1, t⟩) fun s =>
          (.error ⟨.restNotLast, s.start, n + 1⟩, ⟨n, c :: t⟩)
      else (.error ⟨otherwise, Place.spot ⟨n, c :: t⟩⟩, ⟨n, c :: t⟩) := by
  rw [delimiter]
  split
  · rename_i hc
    simp [h] at hc
  · rename_i d u hc
    obtain ⟨rfl, rfl⟩ : d = c ∧ u = t := by simpa [h] using hc.symm
    simp only [h, apply_ite outcome, beq_iff_eq, outcome_done, outcome_fail]
    cases rest? <;> rfl

theorem delimiter_outcome_nil {closing : Char} {otherwise : Cause} {rest? : Option Span}
    (h : p.skipSpace.ahead = []) :
    (p.delimiter closing otherwise rest?).outcome =
      (.error ⟨otherwise, p.skipSpace.spot⟩, p.skipSpace) := by
  rw [delimiter]
  split
  · rfl
  · rename_i hc
    simp [h] at hc

theorem value_outcome_nil (h : p.skipSpace.ahead = []) :
    (p.value s).outcome = (.error ⟨.emptyField .value, p.pos, p.skipSpace.pos⟩, p.skipSpace) := by
  rw [value]
  split
  · rfl
  · rename_i hc
    simp [h] at hc

/-- A value is told by its first character. -/
theorem value_outcome (h : p.skipSpace = ⟨n, c :: t⟩) :
    (p.value s).outcome =
      if s.holds c then (.ok (.string ⟨n, n + 1⟩ (String.singleton c)), ⟨n + 1, t⟩)
      else if c = '"' ∨ c = '\'' then p.string.outcome
      else if c = '[' then
        let r := (items ⟨n + 1, t⟩).outcome
        (r.1.map fun (elements, isOpen) => .array ⟨n, r.2.pos⟩ elements isOpen, r.2)
      else if c = '{' then
        let r := (fields ⟨n + 1, t⟩).outcome
        (r.1.map fun (pairs, isOpen) => .object ⟨n, r.2.pos⟩ pairs isOpen, r.2)
      else if restMarker <+: c :: t then
        (.ok (.rest ⟨n, n + 3⟩), ⟨n + 3, (c :: t).drop 3⟩)
      else (p.literal s).outcome := by
  obtain rfl : p.skipSpace.pos = n := by rw [h]
  have hahead : p.skipSpace.ahead = c :: t := by rw [h]
  rw [value]
  split
  · rename_i hc
    simp [hahead] at hc
  · rename_i d u hc
    obtain ⟨rfl, rfl⟩ := List.cons.inj (hahead.symm.trans hc)
    simp only [apply_ite outcome, beq_iff_eq, Bool.or_eq_true, outcome_done, outcome_before, hahead,
      List.isPrefixOf_iff_prefix]

theorem items_outcome (p : Place) :
    (items p).outcome =
      match (p.value .element).outcome with
      | (.error e, q) => (.error e, q)
      | (.ok x, q) =>
        if x.isBare ']' then (.ok ([], false), q)
        else if x.isBare ',' then (.error ⟨.missingElement, p.pos, x.mark.stop⟩, q)
        else
          match (q.delimiter ']' .unterminatedElement x.restSpan?).outcome with
          | (.error e, r) => (.error e, r)
          | (.ok closed, r) =>
            if x.isRest then (.ok ([], true), r)
            else if closed then (.ok ([x], false), r)
            else
              ((items r).outcome.1.map fun (elements, isOpen) => (x :: elements, isOpen),
                (items r).outcome.2) := by
  rw [items]
  split
  · rename_i e q hq hv
    simp only [hv, outcome_mk]
  · rename_i x q hq hv
    simp only [hv, outcome_mk, apply_ite outcome, outcome_done, outcome_fail]
    congr 2
    split
    · rename_i e r hr hd
      simp only [hd, outcome_mk]
    · rename_i closed r hr hd
      simp only [hd, outcome_mk, apply_ite outcome, outcome_done, outcome_before]

theorem fields_outcome_nil (h : p.skipSpace.ahead = []) :
    (fields p).outcome = (.error ⟨.emptyField .key, p.pos, p.skipSpace.pos⟩, p.skipSpace) := by
  rw [fields]
  split
  · rfl
  · rename_i hc
    simp [h] at hc

theorem fields_outcome (h : p.skipSpace = ⟨n, c :: t⟩) :
    (fields p).outcome =
      if c = '}' then (.ok ([], false), ⟨n + 1, t⟩)
      else
        match p.skipSpace.key.outcome with
        | (.error e, r) => (.error e, r)
        | (.ok name, r) =>
          if name.isRest then
            let d := (r.delimiter '}' .unterminatedField name.restSpan?).outcome
            (d.1.map fun _ => ([], true), d.2)
          else
            match r.colon.outcome with
            | (.error e, u) => (.error e, u)
            | (.ok (), u) =>
              match (u.value .fieldValue).outcome with
              | (.error e, v) => (.error e, v)
              | (.ok content, v) =>
                if content.isBare '}' then
                  (.error ⟨.missingValue, u.pos, content.mark.stop⟩, v)
                else
                  match (v.delimiter '}' .unterminatedField none).outcome with
                  | (.error e, w) => (.error e, w)
                  | (.ok closed, w) =>
                    if closed then (.ok ([(name, content)], false), w)
                    else
                      ((fields w).outcome.1.map fun (pairs, isOpen) =>
                        ((name, content) :: pairs, isOpen), (fields w).outcome.2) := by
  rw [fields]
  split
  · rename_i hc
    simp [h] at hc
  · rename_i d u hc
    obtain ⟨rfl, rfl⟩ : d = c ∧ u = t := by simpa [h] using hc.symm
    obtain rfl : p.skipSpace.pos = n := by rw [h]
    simp only [apply_ite outcome, beq_iff_eq, outcome_done]
    congr 1
    split
    · rename_i e r hr hk
      simp only [hk, outcome_mk]
    · rename_i name r hr hk
      simp only [hk, outcome_mk, apply_ite outcome, outcome_before]
      congr 1
      split
      · rename_i e u hu hl
        simp only [hl, outcome_mk]
      · rename_i u hu hl
        simp only [hl, outcome_mk]
        split
        · rename_i e v hv hx
          simp only [hx, outcome_mk]
        · rename_i content v hv hx
          simp only [hx, outcome_mk, apply_ite outcome, outcome_fail]
          congr 1
          split
          · rename_i e w hw hd
            simp only [hd, outcome_mk]
          · rename_i closed w hw hd
            simp only [hd, outcome_mk, apply_ite outcome, outcome_done, outcome_before]

theorem requireOpen_outcome_nil {opening : Char} {what : Construct} (h : p.skipSpace.ahead = []) :
    (p.requireOpen opening what).outcome =
      (.error ⟨.emptyField what, p.pos, p.skipSpace.pos⟩, p.skipSpace) := by
  rw [requireOpen]
  split
  · rfl
  · rename_i hc
    simp [h] at hc

theorem requireOpen_outcome {opening : Char} {what : Construct} (h : p.skipSpace = ⟨n, c :: t⟩) :
    (p.requireOpen opening what).outcome =
      if c = opening then (.ok (), ⟨n, c :: t⟩)
      else (.error ⟨.unexpectedOpening what c, Place.spot ⟨n, c :: t⟩⟩, ⟨n, c :: t⟩) := by
  rw [requireOpen]
  split
  · rename_i hc
    simp [h] at hc
  · rename_i d u hc
    obtain ⟨rfl, rfl⟩ : d = c ∧ u = t := by simpa [h] using hc.symm
    simp only [h, apply_ite outcome, beq_iff_eq, outcome_done, outcome_fail]

theorem skipSpace_of_requireOpen {opening : Char} {what : Construct}
    (h : (p.requireOpen opening what).outcome = (.ok (), q)) :
    ∃ n t, p.skipSpace = ⟨n, opening :: t⟩ ∧ q = ⟨n, opening :: t⟩ := by
  obtain hnil | ⟨n, c, t, hp⟩ := p.skipSpace_cases
  · simp [requireOpen_outcome_nil hnil] at h
  · rw [requireOpen_outcome hp] at h
    split at h
    · rename_i hc
      subst hc
      exact ⟨n, t, hp, (Prod.mk.inj h).2.symm⟩
    · simp at h

theorem array_outcome (p : Place) :
    p.array.outcome =
      match (p.requireOpen '[' .array).outcome with
      | (.error e, q) => (.error e, q)
      | (.ok (), q) =>
        let r := (items ⟨q.pos + 1, q.ahead.drop 1⟩).outcome
        (r.1.map fun (elements, isOpen) => .array ⟨q.pos, r.2.pos⟩ elements isOpen, r.2) := by
  rw [array]
  split
  · rename_i e q le h
    simp only [h, outcome_mk]
  · rename_i q le h
    simp only [h, outcome_mk, outcome_before]

theorem object_outcome (p : Place) :
    p.object.outcome =
      match (p.requireOpen '{' .object).outcome with
      | (.error e, q) => (.error e, q)
      | (.ok (), q) =>
        let r := (fields ⟨q.pos + 1, q.ahead.drop 1⟩).outcome
        (r.1.map fun (pairs, isOpen) => .object ⟨q.pos, r.2.pos⟩ pairs isOpen, r.2) := by
  rw [object]
  split
  · rename_i e q le h
    simp only [h, outcome_mk]
  · rename_i q le h
    simp only [h, outcome_mk, outcome_before]

end Place

end ValuePattern
