import ValuePattern.Proofs.Scan.Basic
/-!
Scans of the parts of a pattern that hold no values. Each does what the reading of its name does.
-/
namespace ValuePattern.Scan

section Tokens

/-- Scans a word or a number up to a stop. -/
def literal (s : Stop) : Scan (Node Span) := do
  let (start, _) ← require .value
  let length? := s.find? (← rest)
  let close := (length?.map (start + ·)).getD (← stop)
  setPosition close
  let token := Text.trimEnd (← slice (← span start close))
  let mark ← span start (start + token.length)
  if token = [] then fail (.emptyField .value) (← spanAt start)
  else
    match Node.ofToken? mark token with
    | some node => return node
    | none => fail (.invalidLiteral (String.ofList token)) mark

/-- Scans a string in quotes. -/
def string : Scan (Node Span) := do
  let (start, quote) ← require .string
  if quote != '"' && quote != '\'' then
    fail (.unexpectedOpening .string quote) (← spanAt start)
  else
    advance 1
    match (← rest).findIdx? (· == quote) with
    | none => fail (.unterminatedString quote) (← span start (← stop))
    | some length =>
      let close := start + 1 + length
      setPosition (close + 1)
      let text ← slice (← span (start + 1) close)
      return .string (← span start (close + 1)) (String.ofList text)

/-- Scans the rest marker that stands at a position. -/
def restAt (start : Nat) : Scan (Node Span) := do
  setPosition (start + restMarker.length)
  return .rest (← span start (start + restMarker.length))

/-- Scans the key of a field. -/
def key : Scan (Node Span) := do
  let (start, c) ← require .key
  if c = '"' ∨ c = '\'' then string
  else if (← startsWith restMarker) then restAt start
  else
    match Stop.key.find? (← rest) with
    | none => fail .unterminatedKey (← span start (← stop))
    | some length =>
      let mark ← span start (start + length)
      setPosition mark.stop
      return .string mark (String.ofList (← slice mark))

/-- Scans the colon behind a key. -/
def colon : Scan Unit := do
  let start ← skipSpace
  if (← peek?) = some ':' then advance 1 else fail .expectedColon (← spanAt start)

/-- Scans what comes behind an entry, and says whether it was the closing character. Behind a rest
marker, whose span is then given, no comma may come. -/
def delimiter (closing : Char) (otherwise : Cause) (rest? : Option Span) : Scan Bool := do
  let start ← skipSpace
  match ← peek? with
  | none => fail otherwise (← spanAt start)
  | some c =>
    if c = closing then
      advance 1
      return true
    else if c = ',' then
      match rest? with
      | some s => fail .restNotLast (← span s.start (start + 1))
      | none =>
        advance 1
        return false
    else fail otherwise (← spanAt start)

end Tokens

open Place

section Tokens

variable {text t : List Char} {p q : Place} {n : Nat} {c : Char}

theorem find?_eq (s : Stop) (t : List Char) :
    s.find? t = if s.after t = [] then none else some (s.token t).length := findIdx?_eq t

theorem literal_does (s : Stop) : (literal s).Does text p (p.literal s).outcome := by
  obtain hnil | ⟨n, c, t, h⟩ := p.skipSpace_cases
  · rw [literal_outcome_nil hnil]
    exact (does_require_nil hnil).bind_error
  rw [literal_outcome h]
  refine (does_require h).bind (.of_liesIn fun hq => ?_)
  have hpass := passes_skipToken s ⟨n, c :: t⟩
  have hclose : ((s.find? (c :: t)).map (n + ·)).getD (Place.stop ⟨n, c :: t⟩) =
      (Place.skipToken s ⟨n, c :: t⟩).pos := by
    rw [Place.stop, Option.getD_map, Stop.find?, getD_findIdx?]
    rfl
  refine does_rest.bind (does_stop.bind ?_)
  rw [hclose]
  refine (does_setPosition hpass).bind ((does_span (Nat.le_add_right _ _)).bind ?_)
  refine (does_slice_of_passes hq hpass).bind ((does_span (Nat.le_add_right _ _)).bind ?_)
  dsimp only
  split
  · exact (does_spanAt hq).bind (does_fail _ _)
  · generalize Node.ofToken? _ _ = node?
    cases node? with
    | some node => exact does_pure _
    | none => exact does_fail _ _

theorem string_does : string.Does text p p.string.outcome := by
  obtain hnil | ⟨n, quote, t, h⟩ := p.skipSpace_cases
  · rw [string_outcome_nil hnil]
    exact (does_require_nil hnil).bind_error
  refine (does_require h).bind (.of_liesIn fun hq => ?_)
  dsimp only
  by_cases hquote : quote = '"' ∨ quote = '\''
  · rw [if_neg (by rcases hquote with rfl | rfl <;> decide)]
    have hopen : Passes ⟨n, quote :: t⟩ [quote] ⟨n + 1, t⟩ := ⟨rfl, rfl⟩
    refine (does_advance hopen).bind (does_rest.bind ?_)
    by_cases hclosed : quote ∈ t
    · obtain ⟨inside, behind, rfl, hi⟩ := List.eq_append_cons_of_mem hclosed
      have hfind : (inside ++ quote :: behind).findIdx? (· == quote) = some inside.length := by
        have hnone : inside.findIdx? (· == quote) = none := by
          rw [List.findIdx?_eq_none_iff]
          exact fun d hd => by simpa using fun he : d = quote => hi (he ▸ hd)
        simp [List.findIdx?_append, hnone, List.findIdx?_cons]
      have hinside : Passes ⟨n + 1, inside ++ quote :: behind⟩ inside
          ⟨n + 1 + inside.length, quote :: behind⟩ := passes_mk _ _ _
      have hclose : n + inside.length + 2 = n + 1 + inside.length + 1 := by omega
      rw [string_outcome h hquote hi, hclose, hfind]
      refine (does_setPosition hinside.next).bind ((does_span (Nat.le_add_right _ _)).bind ?_)
      refine (does_slice_of_passes (hq.passes hopen) hinside).bind ?_
      exact (does_span (by omega)).bind (does_pure _)
    · have hfind : t.findIdx? (· == quote) = none := by
        rw [List.findIdx?_eq_none_iff]
        exact fun d hd => by simpa using fun he : d = quote => hclosed (he ▸ hd)
      have hstop : Place.stop ⟨n + 1, t⟩ = Place.stop ⟨n, quote :: t⟩ := by
        simp only [Place.stop, List.length_cons]
        omega
      rw [string_outcome_open h hquote hclosed, hfind]
      refine does_stop.bind ?_
      rw [hstop]
      exact (does_span (Nat.le_add_right _ _)).bind (does_fail _ _)
  · obtain ⟨hdouble, hsingle⟩ := not_or.mp hquote
    rw [string_outcome_of_ne h hdouble hsingle, if_pos (by simp [hdouble, hsingle])]
    exact (does_spanAt hq).bind (does_fail _ _)

theorem restAt_does (h : restMarker <+: t) :
    (restAt n).Does text ⟨n, t⟩ (.ok (.rest ⟨n, n + 3⟩), ⟨n + 3, t.drop 3⟩) := by
  obtain ⟨u, rfl⟩ := h
  have hpass : Passes ⟨n, restMarker ++ u⟩ restMarker ⟨n + 3, u⟩ := passes_mk n restMarker u
  exact (does_setPosition hpass).bind ((does_span (Nat.le_add_right _ _)).bind (does_pure _))

theorem key_does (text : List Char) (p : Place) : key.Does text p p.key.outcome := by
  obtain hnil | ⟨n, c, t, h⟩ := p.skipSpace_cases
  · rw [key_outcome_nil hnil]
    exact (does_require_nil hnil).bind_error
  rw [key_outcome h]
  refine (does_require h).bind (.of_liesIn fun hq => ?_)
  dsimp only
  split
  · rename_i hc
    rw [← string_outcome_mk h hc]
    exact string_does
  refine (does_startsWith _).bind ?_
  simp only [List.isPrefixOf_iff_prefix]
  split
  · rename_i hrest
    exact restAt_does hrest
  have hpass := passes_skipToken .key ⟨n, c :: t⟩
  have hfind : Stop.key.find? (c :: t) =
      if (Place.skipToken .key ⟨n, c :: t⟩).ahead = [] then none
      else some (Stop.key.token (c :: t)).length := find?_eq .key (c :: t)
  refine does_rest.bind ?_
  dsimp only
  by_cases hopen : (Place.skipToken .key ⟨n, c :: t⟩).ahead = []
  · rw [hfind, if_pos hopen, if_pos hopen]
    exact does_stop.bind ((does_span (Nat.le_add_right _ _)).bind (does_fail _ _))
  · rw [hfind, if_neg hopen, if_neg hopen]
    refine (does_span (Nat.le_add_right _ _)).bind ((does_setPosition hpass).bind ?_)
    exact (does_slice_of_passes hq hpass).bind (does_pure _)

theorem colon_does (text : List Char) (p : Place) : colon.Does text p p.colon.outcome := by
  refine .of_liesIn fun hp => ?_
  have hq : p.skipSpace.LiesIn text := hp.passes (passes_skipSpace p)
  obtain hnil | ⟨n, c, t, h⟩ := p.skipSpace_cases
  · rw [colon_outcome_nil hnil]
    refine does_skipSpace.bind (does_peek?.bind ?_)
    rw [hnil, if_neg (by simp)]
    exact (does_spanAt hq).bind (does_fail _ _)
  · rw [colon_outcome h]
    refine does_skipSpace.bind (does_peek?.bind ?_)
    rw [h] at hq ⊢
    by_cases hc : c = ':'
    · rw [if_pos hc, if_pos (by simp [hc])]
      exact does_advance (t := [c]) ⟨rfl, rfl⟩
    · rw [if_neg hc, if_neg (by simp [hc])]
      exact (does_spanAt hq).bind (does_fail _ _)

theorem delimiter_does {closing : Char} (otherwise : Cause) {rest? : Option Span}
    (hrest : ∀ s ∈ rest?, s.start ≤ p.pos) :
    (delimiter closing otherwise rest?).Does text p
      (p.delimiter closing otherwise rest?).outcome := by
  refine .of_liesIn fun hp => ?_
  have hq : p.skipSpace.LiesIn text := hp.passes (passes_skipSpace p)
  have hle : p.pos ≤ p.skipSpace.pos := Nat.le_add_right _ _
  obtain hnil | ⟨n, c, t, h⟩ := p.skipSpace_cases
  · rw [delimiter_outcome_nil hnil]
    refine does_skipSpace.bind (does_peek?.bind ?_)
    rw [hnil]
    exact (does_spanAt hq).bind (does_fail _ _)
  · rw [delimiter_outcome h]
    refine does_skipSpace.bind (does_peek?.bind ?_)
    rw [h] at hq hle ⊢
    have hnext : Passes ⟨n, c :: t⟩ [c] ⟨n + 1, t⟩ := ⟨rfl, rfl⟩
    dsimp only [List.head?_cons]
    split
    · exact (does_advance hnext).bind (does_pure _)
    split
    · cases rest? with
      | none => exact (does_advance hnext).bind (does_pure _)
      | some s =>
        have hs : s.start ≤ n + 1 := by
          have := hrest s rfl
          exact Nat.le_succ_of_le (Nat.le_trans this hle)
        exact (does_span hs).bind (does_fail _ _)
    · exact (does_spanAt hq).bind (does_fail _ _)

end Tokens

end ValuePattern.Scan
