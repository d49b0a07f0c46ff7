import ValuePattern.Cursor
import ValuePattern.Proofs.Reading.Passage
/-!
Scans. A scan moves one cursor over the whole text, step by step, and every span that it makes is
asserted to end no sooner than it starts. Where an assertion fails, or the turns that it was given are
used up, it breaks off with neither a result nor an error. What an operation does is said by the place
that the cursor stands for before and after it.
-/
namespace ValuePattern

/-- The place lies in the text: what is behind it and what is ahead make up the text. -/
def Place.LiesIn (text : List Char) (p : Place) : Prop :=
  ∃ before, (Place.first text).Passes before p

namespace Place

variable {text t : List Char} {p q : Place}

theorem LiesIn.passes (h : p.LiesIn text) (hpass : p.Passes t q) : q.LiesIn text := by
  obtain ⟨before, hp⟩ := h
  exact ⟨before ++ t, hp.trans hpass⟩

theorem LiesIn.stop_eq (h : p.LiesIn text) : p.stop = text.length := by
  obtain ⟨before, hp⟩ := h
  have hahead : text = before ++ p.ahead := hp.ahead
  have hpos := hp.pos
  rw [stop, hpos, hahead, List.length_append]
  simp [first]

theorem LiesIn.pos_le (h : p.LiesIn text) : p.pos ≤ text.length := by
  rw [← h.stop_eq]
  exact Nat.le_add_right _ _

theorem LiesIn.drop_pos (h : p.LiesIn text) : text.drop p.pos = p.ahead := by
  obtain ⟨before, hp⟩ := h
  have hahead : text = before ++ p.ahead := hp.ahead
  have hpos : p.pos = before.length := by simpa [first] using hp.pos
  rw [hpos, hahead, List.drop_left]

/-- The span of the characters that are passed names them. -/
theorem LiesIn.slice (h : p.LiesIn text) (hpass : p.Passes t q) :
    Span.slice ⟨p.pos, q.pos⟩ text = t := by
  rw [Span.slice, List.drop_take, h.drop_pos, hpass.pos, hpass.ahead, Nat.add_sub_cancel_left,
    List.take_left]

/-- In one text the position is the greater the less is ahead. -/
theorem LiesIn.pos_le_pos (hp : p.LiesIn text) (hq : q.LiesIn text)
    (h : q.ahead.length ≤ p.ahead.length) : p.pos ≤ q.pos := by
  have hstop := hp.stop_eq.trans hq.stop_eq.symm
  rw [stop, stop] at hstop
  omega

theorem passes_skipSpace (p : Place) : p.Passes (p.ahead.takeWhile Text.isBlank) p.skipSpace :=
  ⟨List.takeWhile_append_dropWhile.symm, rfl⟩

theorem passes_end (p : Place) : p.Passes p.ahead ⟨p.stop, []⟩ :=
  ⟨(List.append_nil _).symm, rfl⟩

end Place

/-- A scan of a text by a cursor. -/
abbrev Scan := ExceptT SyntaxError (StateT Cursor Option)

namespace Scan

section Operations

variable {α : Type}

/-- Neither a result nor an error. -/
def breakOff : Scan α := ExceptT.mk fun _ => none

/-- A span; that it ends no sooner than it starts is asserted. -/
def span (start stop : Nat) : Scan Span := if start ≤ stop then pure ⟨start, stop⟩ else breakOff

def position : Scan Nat := return (← get).pos

def setPosition (n : Nat) : Scan Unit := modify fun c => c.setPos n

def advance (n : Nat) : Scan Unit := modify fun c => c.advance n

/-- The position at the end of the text. -/
def stop : Scan Nat := return (← get).stop

def peek? : Scan (Option Char) := return (← get).peek?

/-- The part of the text that a span names. -/
def slice (s : Span) : Scan (List Char) := return s.slice (← get).text

/-- The text from the position on. -/
def rest : Scan (List Char) := do slice (← span (← position) (← stop))

def startsWith (start : List Char) : Scan Bool := return start.isPrefixOf (← rest)

/-- The span of the character at a position, empty at the end of the text. -/
def spanAt (n : Nat) : Scan Span := do span n (max (min (n + 1) (← stop)) n)

/-- An error that blames a span. -/
def fail (cause : Cause) (s : Span) : Scan α := do throw ((← get).error ⟨cause, s⟩)

/-- Moves past blanks, and gives the position behind them. -/
def skipSpace : Scan Nat := do
  let blanks := (← rest).findIdx? fun c => !Text.isBlank c
  advance (blanks.getD (← rest).length)
  position

/-- Moves past blanks, and gives the position and the character where something of the kind `what`
begins. -/
def require (what : Construct) : Scan (Nat × Char) := do
  let before ← position
  let start ← skipSpace
  match ← peek? with
  | some c => return (start, c)
  | none => fail (.emptyField what) (← span before (← stop))

/-- The same, where only one character may come next. -/
def requireOpen (opening : Char) (what : Construct) : Scan Nat := do
  let (start, found) ← require what
  if found != opening then fail (.unexpectedOpening what found) (← spanAt start)
  else return start

end Operations

/-- The first character of a kind stands behind all those before it that are of another. -/
theorem findIdx?_eq {P : Char → Bool} (t : List Char) :
    t.findIdx? P = if t.dropWhile (fun c => !P c) = [] then none
      else some (t.takeWhile fun c => !P c).length := by
  induction t with
  | nil => simp
  | cons c t ih =>
    cases hc : P c with
    | true => simp [List.findIdx?_cons, hc]
    | false =>
      simp only [List.findIdx?_cons, hc, ih, List.dropWhile_cons, List.takeWhile_cons]
      simp
      split <;> simp

theorem getD_findIdx? {P : Char → Bool} (t : List Char) :
    (t.findIdx? P).getD t.length = (t.takeWhile fun c => !P c).length := by
  rw [findIdx?_eq]
  split
  · rename_i hnil
    have h := List.takeWhile_append_dropWhile (p := fun c => !P c) (l := t)
    rw [hnil, List.append_nil] at h
    rw [h, Option.getD_none]
  · rfl

section Effects

variable {α β : Type} {x : Scan α} {f : α → Scan β} {c : Cursor} {a : α}

/-- What a scan comes to from a cursor, and the cursor that it leaves; nothing where it breaks off. -/
def on (x : Scan α) (c : Cursor) : Option (Except SyntaxError α × Cursor) := (ExceptT.run x).run c

theorem on_bind : (x >>= f).on c = (x.on c).bind fun r =>
    match r with
    | (.ok a, d) => (f a).on d
    | (.error e, d) => some (.error e, d) := by
  change (x.on c).bind _ = _
  congr 1
  funext r
  obtain ⟨r, d⟩ := r
  cases r <;> rfl

/-- From a place in the text, a scan does what a reading with the given outcome does. -/
def Does (x : Scan α) (text : List Char) (p : Place) (o : Except Fault α × Place) : Prop :=
  p.LiesIn text →
    x.on ⟨text, p.pos⟩ =
        some (o.1.mapError (SyntaxError.ofFault (String.ofList text)), ⟨text, o.2.pos⟩) ∧
      o.2.LiesIn text

variable {text t : List Char} {p q : Place} {o : Except Fault β × Place} {fault : Fault}

theorem Does.of_liesIn {o : Except Fault α × Place} (h : p.LiesIn text → x.Does text p o) :
    x.Does text p o := fun hp => h hp hp

theorem Does.bind (hx : x.Does text p (.ok a, q)) (hf : (f a).Does text q o) :
    (x >>= f).Does text p o := by
  intro hp
  obtain ⟨hon, hq⟩ := hx hp
  rw [on_bind, hon]
  exact hf hq

theorem Does.bind_error (hx : x.Does text p (.error fault, q)) :
    (x >>= f).Does text p (.error fault, q) := by
  intro hp
  obtain ⟨hon, hq⟩ := hx hp
  rw [on_bind, hon]
  exact ⟨rfl, hq⟩

theorem does_pure (a : α) : (pure a : Scan α).Does text p (.ok a, p) := fun hp => ⟨rfl, hp⟩

theorem does_span {start stop : Nat} (h : start ≤ stop) :
    (span start stop).Does text p (.ok ⟨start, stop⟩, p) := by
  rw [span, if_pos h]
  exact does_pure _

theorem does_position : position.Does text p (.ok p.pos, p) := fun hp => ⟨rfl, hp⟩

theorem does_stop : stop.Does text p (.ok p.stop, p) := by
  intro hp
  rw [hp.stop_eq]
  exact ⟨rfl, hp⟩

theorem does_setPosition (h : p.Passes t q) : (setPosition q.pos).Does text p (.ok (), q) := by
  intro hp
  have hq := hp.passes h
  have hpos : min q.pos text.length = q.pos := Nat.min_eq_left hq.pos_le
  refine ⟨?_, hq⟩
  change some (Except.ok (), (⟨text, min q.pos text.length⟩ : Cursor)) = _
  rw [hpos]
  rfl

theorem does_advance (h : p.Passes t q) : (advance t.length).Does text p (.ok (), q) := by
  have hset : (setPosition q.pos).Does text p (.ok (), q) := does_setPosition h
  rw [h.pos] at hset
  exact hset

theorem does_peek? : peek?.Does text p (.ok p.ahead.head?, p) := by
  intro hp
  refine ⟨?_, hp⟩
  rw [← hp.drop_pos, List.head?_drop]
  rfl

theorem does_slice (s : Span) : (slice s).Does text p (.ok (s.slice text), p) :=
  fun hp => ⟨rfl, hp⟩

/-- The span of what was passed names it, wherever the cursor stands by then. -/
theorem does_slice_of_passes {r : Place} (hp : p.LiesIn text) (h : p.Passes t q) :
    (slice ⟨p.pos, q.pos⟩).Does text r (.ok t, r) := by
  rw [← hp.slice h]
  exact does_slice _

theorem does_rest : rest.Does text p (.ok p.ahead, p) := by
  refine .of_liesIn fun hp => ?_
  rw [← hp.slice p.passes_end]
  exact does_position.bind (does_stop.bind ((does_span (Nat.le_add_right _ _)).bind (does_slice _)))

theorem does_startsWith (start : List Char) :
    (startsWith start).Does text p (.ok (start.isPrefixOf p.ahead), p) :=
  does_rest.bind (does_pure _)

theorem does_spanAt (hp : p.LiesIn text) : (spanAt p.pos).Does text q (.ok p.spot, q) := by
  refine .of_liesIn fun hq => ?_
  have hspot : p.spot = ⟨p.pos, max (min (p.pos + 1) q.stop) p.pos⟩ := by
    rw [Place.spot, hq.stop_eq, ← hp.stop_eq, Place.stop]
    congr 1
    omega
  rw [hspot]
  exact does_stop.bind (does_span (Nat.le_max_right _ _))

theorem does_fail (cause : Cause) (s : Span) :
    (fail cause s : Scan α).Does text p (.error ⟨cause, s⟩, p) := fun hp => ⟨rfl, hp⟩

theorem does_skipSpace : skipSpace.Does text p (.ok p.skipSpace.pos, p.skipSpace) := by
  have hblanks : (p.ahead.findIdx? fun c => !Text.isBlank c).getD p.ahead.length =
      (p.ahead.takeWhile Text.isBlank).length := by
    simpa using getD_findIdx? (P := fun c => !Text.isBlank c) p.ahead
  refine does_rest.bind (does_rest.bind ?_)
  rw [hblanks]
  exact (does_advance p.passes_skipSpace).bind does_position

theorem does_require_nil {what : Construct} (h : p.skipSpace.ahead = []) :
    (require what).Does text p
      (.error ⟨.emptyField what, p.pos, p.skipSpace.pos⟩, p.skipSpace) := by
  have hstop : p.skipSpace.stop = p.skipSpace.pos := by simp [Place.stop, h]
  have hle : p.pos ≤ p.skipSpace.pos := Nat.le_add_right _ _
  refine does_position.bind (does_skipSpace.bind (does_peek?.bind ?_))
  rw [h]
  refine does_stop.bind ?_
  rw [hstop]
  exact (does_span hle).bind (does_fail _ _)

theorem does_require {what : Construct} {n : Nat} {c : Char} (h : p.skipSpace = ⟨n, c :: t⟩) :
    (require what).Does text p (.ok (n, c), ⟨n, c :: t⟩) := by
  refine does_position.bind (does_skipSpace.bind (does_peek?.bind ?_))
  rw [h]
  exact does_pure _

theorem does_requireOpen_of_ne {opening : Char} {what : Construct} {n : Nat} {c : Char}
    (h : p.skipSpace = ⟨n, c :: t⟩) (hc : c ≠ opening) :
    (requireOpen opening what).Does text p
      (.error ⟨.unexpectedOpening what c, Place.spot ⟨n, c :: t⟩⟩, ⟨n, c :: t⟩) := by
  refine (does_require h).bind (.of_liesIn fun hq => ?_)
  dsimp only
  rw [if_pos (bne_iff_ne.mpr hc)]
  exact (does_spanAt hq).bind (does_fail _ _)

theorem does_requireOpen {opening : Char} {what : Construct} {n : Nat}
    (h : p.skipSpace = ⟨n, opening :: t⟩) :
    (requireOpen opening what).Does text p (.ok n, ⟨n, opening :: t⟩) := by
  refine (does_require h).bind ?_
  dsimp only
  rw [if_neg (by simp)]
  exact does_pure _

end Effects

end Scan

end ValuePattern
