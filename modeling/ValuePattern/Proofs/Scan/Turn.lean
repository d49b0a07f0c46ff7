import ValuePattern.Proofs.Reading.Behind
import ValuePattern.Proofs.Reading.Progress
import ValuePattern.Proofs.Scan.Token
/-!
Scans of pattern trees. Arrays and objects are scanned by loops that go from one state to the next, and
each call and each turn of a loop uses up one of the turns that the scan was given. A turn may take no
character at all, as the one that reads an empty key; so what every turn brings down is the number of
characters ahead together with a weight for the state that the loop is in.
-/
namespace ValuePattern.Scan

/-- The states of the loop of an array. -/
inductive ArrayState where
  /-- an element, a rest marker or the closing bracket comes -/
  | element
  /-- a comma or the closing bracket comes -/
  | next
  | done

/-- The loop of an array: its state, the elements so far, and the span of the rest marker. -/
structure ArrayLoop where
  state : ArrayState
  elements : List (Node Span)
  rest? : Option Span

/-- The states of the loop of an object; a key is kept until its value is there. -/
inductive ObjectState where
  | key
  | colon (name : Node Span)
  | value (name : Node Span)
  | comma
  | done

/-- The loop of an object: its state, the fields so far, and the span of the rest marker. -/
structure ObjectLoop where
  state : ObjectState
  pairs : List (Node Span × Node Span)
  rest? : Option Span

/-- One turn of the loop of an array. -/
def ArrayLoop.turn (value : Scan (Node Span)) (run : ArrayLoop) : Scan ArrayLoop :=
  match run.state with
  | .element => do
    let before ← position
    let node ← value
    if node.isBare ']' then return { run with state := .done }
    else if node.isBare ',' then fail .missingElement (← span before node.mark.stop)
    else if node.isRest then return { run with state := .next, rest? := some node.mark }
    else return { run with state := .next, elements := run.elements ++ [node] }
  | .next => do
    if ← delimiter ']' .unterminatedElement run.rest? then return { run with state := .done }
    else return { run with state := .element }
  | .done => return run

/-- One turn of the loop of an object. -/
def ObjectLoop.turn (value : Scan (Node Span)) (run : ObjectLoop) : Scan ObjectLoop :=
  match run.state with
  | .key => do
    let (_, c) ← require .key
    if c = '}' then
      advance 1
      return { run with state := .done }
    else
      let name ← key
      if name.isRest then return { run with state := .comma, rest? := some name.mark }
      else return { run with state := .colon name }
  | .colon name => do
    colon
    return { run with state := .value name }
  | .value name => do
    let before ← position
    let content ← value
    if content.isBare '}' then fail .missingValue (← span before content.mark.stop)
    else return { run with state := .comma, pairs := run.pairs ++ [(name, content)] }
  | .comma => do
    if ← delimiter '}' .unterminatedField run.rest? then return { run with state := .done }
    else return { run with state := .key }
  | .done => return run

mutual

/-- Scans one value in at most the given number of turns. -/
def value : Nat → Stop → Scan (Node Span)
  | 0, _ => breakOff
  | turns + 1, s => do
    let (start, c) ← require .value
    if s.holds c then
      advance 1
      return .string (← span start (start + 1)) (String.singleton c)
    else if c = '"' ∨ c = '\'' then string
    else if c = '[' then array turns
    else if c = '{' then object turns
    else if ← startsWith restMarker then restAt start
    else literal s

def array : Nat → Scan (Node Span)
  | 0 => breakOff
  | turns + 1 => do
    let start ← requireOpen '[' .array
    setPosition (start + 1)
    let (elements, isOpen) ← arrayLoop turns ⟨.element, [], none⟩
    return .array (← span start (← position)) elements isOpen

def arrayLoop : Nat → ArrayLoop → Scan (List (Node Span) × Bool)
  | 0, _ => breakOff
  | turns + 1, run =>
    match run.state with
    | .done => return (run.elements, run.rest?.isSome)
    | _ => do arrayLoop turns (← run.turn (value turns .element))

def object : Nat → Scan (Node Span)
  | 0 => breakOff
  | turns + 1 => do
    let start ← requireOpen '{' .object
    setPosition (start + 1)
    let (pairs, isOpen) ← objectLoop turns ⟨.key, [], none⟩
    return .object (← span start (← position)) pairs isOpen

def objectLoop : Nat → ObjectLoop → Scan (List (Node Span × Node Span) × Bool)
  | 0, _ => breakOff
  | turns + 1, run =>
    match run.state with
    | .done => return (run.pairs, run.rest?.isSome)
    | _ => do objectLoop turns (← run.turn (value turns .fieldValue))

end

open Place Grammar

section Loops

variable {σ ρ α : Type} {text : List Char} {p : Place}

/-- What is known of a loop in one of its states at a place: what it comes to, how many turns it has
left at most, and what holds of it. -/
structure Meaning (σ ρ : Type) where
  outcome : σ → Place → Except Fault ρ × Place
  turns : σ → Place → Nat
  Valid : σ → Place → Prop

/-- A turn fails as its loop does, or it leads to a state from which the loop comes to the same and
has fewer turns left. -/
inductive Leads (m : Meaning σ ρ) (text : List Char) (turn : Scan σ) (a : σ) (p : Place) : Prop
  | fails {e q} : turn.Does text p (.error e, q) → m.outcome a p = (.error e, q) →
      Leads m text turn a p
  | goesOn {b q} : turn.Does text p (.ok b, q) → m.outcome b q = m.outcome a p →
      m.turns b q < m.turns a p → m.Valid b q → Leads m text turn a p

/-- The turn that looks for the delimiter behind an entry or a rest marker. -/
theorem leads_of_delimiter {m : Meaning σ (List α × Bool)} {a closed opened : σ} {closing : Char}
    {otherwise : Cause} {rest? : Option Span} {as : List α}
    {read : Place → Except Fault (List α × Bool) × Place}
    (hrest : ∀ s ∈ rest?, s.start ≤ p.pos)
    (ha : m.outcome a p = behindEntry closing otherwise read as rest? p)
    (hclosed : ∀ q, p.pos ≤ q.pos → q.ahead.length < p.ahead.length →
      m.outcome closed q = (.ok (as, rest?.isSome), q) ∧ m.turns closed q < m.turns a p ∧
        m.Valid closed q)
    (hopened : ∀ q, rest? = none → q.ahead.length < p.ahead.length →
      m.outcome opened q = extend as (read q) ∧ m.turns opened q < m.turns a p ∧
        m.Valid opened q) :
    Leads m text (do if ← delimiter closing otherwise rest? then return closed else return opened)
      a p := by
  have hdoes : (delimiter closing otherwise rest?).Does text p _ := delimiter_does otherwise hrest
  cases hd : (p.delimiter closing otherwise rest?).outcome with
  | mk result q =>
    rw [hd] at hdoes
    rw [behindEntry, hd] at ha
    cases result with
    | error e => exact .fails hdoes.bind_error ha
    | ok isClosed =>
      obtain ⟨hlast, w, -, hpass⟩ := delimiter_sound hd
      have hpos := hpass.pos
      have hlength := hpass.length_ahead
      simp only [List.length_append, List.length_singleton] at hpos hlength
      cases isClosed with
      | true =>
        obtain ⟨houtcome, hturns, hvalid⟩ := hclosed q (by omega) (by omega)
        exact .goesOn (hdoes.bind (does_pure closed)) (houtcome.trans ha.symm) hturns hvalid
      | false =>
        have hnone : rest? = none := by simpa using hlast
        obtain ⟨houtcome, hturns, hvalid⟩ := hopened q hnone (by omega)
        exact .goesOn (hdoes.bind (does_pure opened)) (houtcome.trans ha.symm) hturns hvalid

end Loops

section Arrays

variable {text : List Char} {p q : Place} {v : Scan (Node Span)}

/-- How many turns a state needs beside those for the characters ahead. -/
def ArrayState.weight : ArrayState → Nat
  | element => 3
  | next => 1
  | done => 1

theorem ArrayState.weight_pos (state : ArrayState) : 0 < state.weight := by cases state <;> decide

theorem ArrayState.weight_le (state : ArrayState) : state.weight ≤ 3 := by cases state <;> decide

def ArrayLoop.meaning : Meaning ArrayLoop (List (Node Span) × Bool) where
  outcome run p :=
    match run.state with
    | .element => extend run.elements (items p).outcome
    | .next =>
      behindEntry ']' .unterminatedElement (fun q => (items q).outcome) run.elements run.rest? p
    | .done => (.ok (run.elements, run.rest?.isSome), p)
  turns run p := 4 * p.ahead.length + run.state.weight
  Valid run p :=
    match run.state with
    | .element => run.rest? = none
    | _ => ∀ s ∈ run.rest?, s.start ≤ p.pos

/-- Whatever state it leads to, a turn that takes a character leaves fewer turns. -/
theorem ArrayLoop.turns_lt (a b : ArrayLoop) (h : q.ahead.length < p.ahead.length) :
    meaning.turns b q < meaning.turns a p := by
  have hweight := b.state.weight_le
  simp only [meaning]
  omega

/-- The turn that reads an element, a rest marker, or a bracket or comma in place of one. -/
theorem ArrayLoop.element_leads (xs : List (Node Span))
    (hv : v.Does text p (p.value .element).outcome) :
    Leads meaning text (turn v ⟨.element, xs, none⟩) ⟨.element, xs, none⟩ p := by
  have houtcome := extend_items xs p
  cases ho : (p.value .element).outcome with
  | mk result q =>
    rw [ho] at houtcome hv
    cases result with
    | error e => exact .fails (does_position.bind hv.bind_error) houtcome
    | ok x =>
      have hprogress := value_progress ho
      have hturns (b : ArrayLoop) := turns_lt ⟨.element, xs, none⟩ b hprogress.length_lt
      dsimp only at houtcome
      split at houtcome
      · rename_i hbracket
        refine .goesOn (b := ⟨.done, xs, none⟩) ?_ houtcome.symm (hturns _) (by simp [meaning])
        refine does_position.bind (hv.bind ?_)
        rw [if_pos hbracket]
        exact does_pure _
      rename_i hbracket
      split at houtcome
      · rename_i hcomma
        refine .fails (does_position.bind (hv.bind ?_)) houtcome
        rw [if_neg hbracket, if_pos hcomma]
        exact (does_span (Nat.le_trans hprogress.start_le hprogress.ordered)).bind (does_fail _ _)
      rename_i hcomma
      split at houtcome
      · rename_i hrest
        refine .goesOn (b := ⟨.next, xs, some x.mark⟩) ?_ houtcome.symm (hturns _) ?_
        · refine does_position.bind (hv.bind ?_)
          rw [if_neg hbracket, if_neg hcomma, if_pos hrest]
          exact does_pure _
        · rintro s ⟨⟩
          exact Nat.le_trans hprogress.ordered hprogress.stop_le
      · rename_i hrest
        refine .goesOn (b := ⟨.next, xs ++ [x], none⟩) ?_ houtcome.symm (hturns _)
          (by simp [meaning])
        refine does_position.bind (hv.bind ?_)
        rw [if_neg hbracket, if_neg hcomma, if_neg hrest]
        exact does_pure _

theorem ArrayLoop.turn_leads {run : ArrayLoop} (hstate : run.state ≠ .done)
    (hvalid : meaning.Valid run p)
    (hvalue : run.state = .element → v.Does text p (p.value .element).outcome) :
    Leads meaning text (run.turn v) run p := by
  obtain ⟨state, elements, rest?⟩ := run
  cases state with
  | element =>
    obtain rfl : rest? = none := hvalid
    exact element_leads elements (hvalue rfl)
  | next =>
    refine leads_of_delimiter hvalid rfl ?_ ?_
    · intro q hpos hlength
      exact ⟨rfl, turns_lt _ _ hlength, fun s hs => Nat.le_trans (hvalid s hs) hpos⟩
    · rintro q rfl hlength
      exact ⟨rfl, turns_lt _ _ hlength, rfl⟩
  | done => exact absurd rfl hstate

end Arrays

section Objects

variable {text t : List Char} {p q : Place} {n : Nat} {c : Char} {v : Scan (Node Span)}

def ObjectState.weight : ObjectState → Nat
  | key => 2
  | colon _ => 1
  | value _ => 3
  | comma => 1
  | done => 1

theorem ObjectState.weight_pos (state : ObjectState) : 0 < state.weight := by
  cases state <;> exact Nat.succ_pos _

theorem ObjectState.weight_le (state : ObjectState) : state.weight ≤ 3 := by
  cases state <;> simp [weight]

def ObjectLoop.meaning : Meaning ObjectLoop (List (Node Span × Node Span) × Bool) where
  outcome run p :=
    match run.state with
    | .key => extend run.pairs (fields p).outcome
    | .colon name => behindKey run.pairs name p
    | .value name => behindColon run.pairs name p
    | .comma =>
      behindEntry '}' .unterminatedField (fun q => (fields q).outcome) run.pairs run.rest? p
    | .done => (.ok (run.pairs, run.rest?.isSome), p)
  turns run p := 4 * p.ahead.length + run.state.weight
  Valid run p :=
    match run.state with
    | .comma | .done => ∀ s ∈ run.rest?, s.start ≤ p.pos
    | _ => run.rest? = none

theorem ObjectLoop.turns_lt (a b : ObjectLoop) (h : q.ahead.length < p.ahead.length) :
    meaning.turns b q < meaning.turns a p := by
  have hweight := b.state.weight_le
  simp only [meaning]
  omega

theorem key_mark_start_le {x : Node Span} (h : p.skipSpace = ⟨n, c :: t⟩)
    (hk : p.key.outcome = (.ok x, q)) : x.mark.start ≤ q.pos := by
  obtain ⟨u, hpass, hx⟩ := key_sound h hk
  have hstart : x.mark.start = n := by
    rcases hx with hx | ⟨-, rfl⟩
    · cases hx <;> rfl
    · rfl
  rw [hstart, hpass.pos]
  exact Nat.le_add_right n u.length

/-- The turn that reads a key, a rest marker or the closing brace. Of these a key may be empty: then
no character is taken, and it is the weight of the state that goes down. -/
theorem ObjectLoop.key_leads (ps : List (Node Span × Node Span)) :
    Leads meaning text (turn v ⟨.key, ps, none⟩) ⟨.key, ps, none⟩ p := by
  obtain hnil | ⟨n, c, t, h⟩ := p.skipSpace_cases
  · refine .fails (does_require_nil hnil).bind_error ?_
    simp only [meaning, fields_outcome_nil hnil]
    rfl
  have houtcome := extend_fields ps h
  have hskip := p.skipSpace_le
  rw [h] at houtcome hskip
  split at houtcome
  · rename_i hc
    refine .goesOn (b := ⟨.done, ps, none⟩) (q := ⟨n + 1, t⟩) ?_ houtcome.symm
      (turns_lt _ _ hskip) (by simp [meaning])
    refine (does_require h).bind ?_
    dsimp only
    rw [if_pos hc]
    exact (does_advance (t := [c]) ⟨rfl, rfl⟩).bind (does_pure _)
  rename_i hc
  have hkey := key_does text ⟨n, c :: t⟩
  cases ho : (Place.key ⟨n, c :: t⟩).outcome with
  | mk result q =>
    rw [ho] at houtcome hkey
    have hlength : q.ahead.length ≤ p.ahead.length := Nat.le_trans (length_le_of_outcome ho) hskip
    cases result with
    | error e =>
      refine .fails ((does_require h).bind ?_) houtcome
      dsimp only
      rw [if_neg hc]
      exact hkey.bind_error
    | ok name =>
      dsimp only at houtcome
      split at houtcome
      · rename_i hrest
        refine .goesOn (b := ⟨.comma, ps, some name.mark⟩) ?_ houtcome.symm ?_ ?_
        · refine (does_require h).bind ?_
          dsimp only
          rw [if_neg hc]
          refine hkey.bind ?_
          rw [if_pos hrest]
          exact does_pure _
        · simp only [meaning, ObjectState.weight]
          omega
        · rintro s ⟨⟩
          exact key_mark_start_le (skipSpace_mk h) ho
      · rename_i hrest
        refine .goesOn (b := ⟨.colon name, ps, none⟩) ?_ houtcome.symm ?_ rfl
        · refine (does_require h).bind ?_
          dsimp only
          rw [if_neg hc]
          refine hkey.bind ?_
          rw [if_neg hrest]
          exact does_pure _
        · simp only [meaning, ObjectState.weight]
          omega

theorem ObjectLoop.colon_leads (ps : List (Node Span × Node Span)) (name : Node Span) :
    Leads meaning text (turn v ⟨.colon name, ps, none⟩) ⟨.colon name, ps, none⟩ p := by
  have hcolon := colon_does text p
  cases ho : p.colon.outcome with
  | mk result q =>
    rw [ho] at hcolon
    cases result with
    | error e =>
      refine .fails hcolon.bind_error ?_
      simp only [meaning, behindKey, ho]
    | ok _ =>
      obtain ⟨w, -, hpass⟩ := colon_sound ho
      have hlength := hpass.length_ahead
      rw [List.length_append, List.length_singleton] at hlength
      refine .goesOn (b := ⟨.value name, ps, none⟩) (hcolon.bind (does_pure _)) ?_
        (turns_lt _ _ (by omega)) rfl
      simp only [meaning, behindKey, ho]

theorem ObjectLoop.value_leads (ps : List (Node Span × Node Span)) (name : Node Span)
    (hv : v.Does text p (p.value .fieldValue).outcome) :
    Leads meaning text (turn v ⟨.value name, ps, none⟩) ⟨.value name, ps, none⟩ p := by
  cases ho : (p.value .fieldValue).outcome with
  | mk result q =>
    rw [ho] at hv
    cases result with
    | error e =>
      refine .fails (does_position.bind hv.bind_error) ?_
      simp only [meaning, behindColon, ho]
    | ok x =>
      have hprogress := value_progress ho
      by_cases hbrace : x.isBare '}' = true
      · refine .fails (e := ⟨.missingValue, p.pos, x.mark.stop⟩) (q := q)
          (does_position.bind (hv.bind ?_)) ?_
        · rw [if_pos hbrace]
          exact (does_span (Nat.le_trans hprogress.start_le hprogress.ordered)).bind (does_fail _ _)
        · simp only [meaning, behindColon, ho, if_pos hbrace]
      · refine .goesOn (b := ⟨.comma, ps ++ [(name, x)], none⟩) (q := q) ?_ ?_
          (turns_lt _ _ hprogress.length_lt) (by simp [meaning])
        · refine does_position.bind (hv.bind ?_)
          rw [if_neg hbrace]
          exact does_pure _
        · simp only [meaning, behindColon, ho, if_neg hbrace]

theorem ObjectLoop.turn_leads {run : ObjectLoop} (hstate : run.state ≠ .done)
    (hvalid : meaning.Valid run p)
    (hvalue : ∀ name, run.state = .value name → v.Does text p (p.value .fieldValue).outcome) :
    Leads meaning text (run.turn v) run p := by
  obtain ⟨state, pairs, rest?⟩ := run
  cases state with
  | key =>
    obtain rfl : rest? = none := hvalid
    exact key_leads pairs
  | colon name =>
    obtain rfl : rest? = none := hvalid
    exact colon_leads pairs name
  | value name =>
    obtain rfl : rest? = none := hvalid
    exact value_leads pairs name (hvalue name rfl)
  | comma =>
    refine leads_of_delimiter hvalid rfl ?_ ?_
    · intro q hpos hlength
      exact ⟨rfl, turns_lt _ _ hlength, fun s hs => Nat.le_trans (hvalid s hs) hpos⟩
    · rintro q rfl hlength
      exact ⟨rfl, turns_lt _ _ hlength, rfl⟩
  | done => exact absurd rfl hstate

end Objects

end ValuePattern.Scan
