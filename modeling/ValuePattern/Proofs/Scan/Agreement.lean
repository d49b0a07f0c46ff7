import ValuePattern.Proofs.Scan.Turn
/-!
Scans agree with readings. With four turns for each character ahead, and a few more, no scan runs out
of turns, none of its assertions fails, and it comes to what the reading comes to, at the same place.
-/
namespace ValuePattern.Scan

open Place Grammar

section Agreement

variable {text : List Char} {p : Place} {turns : Nat} {α : Type}

/-- What stands between brackets, with the brackets: the loop is entered behind the opening one, and
the span of the node ends where the loop does. -/
theorem does_brackets {opening : Char} {what : Construct} {loop : Scan (List α × Bool)}
    (read : Place → Except Fault (List α × Bool) × Place)
    {make : Span → List α → Bool → Node Span}
    (hloop : ∀ n t, p.skipSpace = ⟨n, opening :: t⟩ → loop.Does text ⟨n + 1, t⟩ (read ⟨n + 1, t⟩))
    (hpos : ∀ q entries r, read q = (.ok entries, r) → q.pos ≤ r.pos) :
    Does (do
        let start ← requireOpen opening what
        setPosition (start + 1)
        let (entries, isOpen) ← loop
        return make (← span start (← position)) entries isOpen) text p
      (match (p.requireOpen opening what).outcome with
        | (.error e, q) => (.error e, q)
        | (.ok (), q) =>
          let r := read ⟨q.pos + 1, q.ahead.drop 1⟩
          (r.1.map fun (entries, isOpen) => make ⟨q.pos, r.2.pos⟩ entries isOpen, r.2)) := by
  obtain hnil | ⟨n, c, t, hp⟩ := p.skipSpace_cases
  · rw [requireOpen_outcome_nil hnil]
    exact Does.bind_error (does_require_nil hnil).bind_error
  rw [requireOpen_outcome hp]
  by_cases hc : c = opening
  · subst hc
    rw [if_pos rfl]
    have hinside : Passes ⟨n, c :: t⟩ [c] ⟨n + 1, t⟩ := ⟨rfl, rfl⟩
    have hdoes := hloop n t hp
    refine (does_requireOpen hp).bind ((does_setPosition hinside).bind ?_)
    change Does _ text _ ((read ⟨n + 1, t⟩).1.map fun entries =>
      make ⟨n, (read ⟨n + 1, t⟩).2.pos⟩ entries.1 entries.2, (read ⟨n + 1, t⟩).2)
    cases ho : read ⟨n + 1, t⟩ with
    | mk result r =>
      rw [ho] at hdoes
      cases result with
      | error e => exact hdoes.bind_error
      | ok entries =>
        have hle : n ≤ r.pos := Nat.le_of_succ_le (hpos _ _ _ ho)
        exact hdoes.bind (does_position.bind ((does_span hle).bind (does_pure _)))
  · rw [if_neg hc]
    exact (does_requireOpen_of_ne hp hc).bind_error

/-- Scans with so many turns do what the readings do, wherever they have four turns for each character
ahead and a few more. -/
structure Agrees (text : List Char) (turns : Nat) : Prop where
  value {p : Place} {s : Stop} : 4 * p.ahead.length + 2 ≤ turns →
    (value turns s).Does text p (p.value s).outcome
  array {p : Place} : 4 * p.ahead.length + 1 ≤ turns →
    (array turns).Does text p p.array.outcome
  object {p : Place} : 4 * p.ahead.length + 1 ≤ turns →
    (object turns).Does text p p.object.outcome
  arrayLoop {p : Place} {run : ArrayLoop} : ArrayLoop.meaning.Valid run p →
    ArrayLoop.meaning.turns run p ≤ turns →
    (arrayLoop turns run).Does text p (ArrayLoop.meaning.outcome run p)
  objectLoop {p : Place} {run : ObjectLoop} : ObjectLoop.meaning.Valid run p →
    ObjectLoop.meaning.turns run p ≤ turns →
    (objectLoop turns run).Does text p (ObjectLoop.meaning.outcome run p)

theorem agrees_zero (text : List Char) : Agrees text 0 where
  value h := by omega
  array h := by omega
  object h := by omega
  arrayLoop {p run} _ h := by
    have := run.state.weight_pos
    simp only [ArrayLoop.meaning] at h
    omega
  objectLoop {p run} _ h := by
    have := run.state.weight_pos
    simp only [ObjectLoop.meaning] at h
    omega

theorem Agrees.value_succ {s : Stop} (h : Agrees text turns)
    (hturns : 4 * p.ahead.length + 2 ≤ turns + 1) :
    (Scan.value (turns + 1) s).Does text p (p.value s).outcome := by
  obtain hnil | ⟨n, c, t, hp⟩ := p.skipSpace_cases
  · rw [value_outcome_nil hnil]
    exact (does_require_nil hnil).bind_error
  have hskip := p.skipSpace_le
  have hsolid := skipSpace_mk hp
  rw [hp] at hskip
  rw [value_outcome hp]
  refine (does_require hp).bind ?_
  dsimp only
  split
  · have hnext : Passes ⟨n, c :: t⟩ [c] ⟨n + 1, t⟩ := ⟨rfl, rfl⟩
    exact (does_advance hnext).bind ((does_span (Nat.le_add_right _ _)).bind (does_pure _))
  split
  · rename_i hc
    rw [← string_outcome_mk hp hc]
    exact string_does
  split
  · rename_i hc
    have harray := h.array (p := ⟨n, c :: t⟩) (by omega)
    rw [array_outcome, requireOpen_outcome hsolid, if_pos hc] at harray
    exact harray
  split
  · rename_i hc
    have hobject := h.object (p := ⟨n, c :: t⟩) (by omega)
    rw [object_outcome, requireOpen_outcome hsolid, if_pos hc] at hobject
    exact hobject
  refine (does_startsWith _).bind ?_
  simp only [List.isPrefixOf_iff_prefix]
  split
  · rename_i hrest
    exact restAt_does hrest
  · rw [← literal_outcome_mk hp]
    exact literal_does s

theorem Agrees.array_succ (h : Agrees text turns) (hturns : 4 * p.ahead.length + 1 ≤ turns + 1) :
    (Scan.array (turns + 1)).Does text p p.array.outcome := by
  rw [array_outcome]
  refine does_brackets (fun q => (items q).outcome) ?_ ?_
  · intro n t hp
    have hlength : t.length < p.ahead.length := length_lt_of_skipSpace (by rw [hp])
    have hloop : (Scan.arrayLoop turns ⟨.element, [], none⟩).Does text ⟨n + 1, t⟩
        (extend [] (items ⟨n + 1, t⟩).outcome) := by
      refine h.arrayLoop rfl ?_
      simp only [ArrayLoop.meaning, ArrayState.weight]
      omega
    rwa [extend_nil] at hloop
  · rintro q ⟨xs, isOpen⟩ r ho
    obtain ⟨u, hpass, -⟩ := items_sound q ho
    rw [hpass.pos]
    exact Nat.le_add_right _ _

theorem Agrees.object_succ (h : Agrees text turns) (hturns : 4 * p.ahead.length + 1 ≤ turns + 1) :
    (Scan.object (turns + 1)).Does text p p.object.outcome := by
  rw [object_outcome]
  refine does_brackets (fun q => (fields q).outcome) ?_ ?_
  · intro n t hp
    have hlength : t.length < p.ahead.length := length_lt_of_skipSpace (by rw [hp])
    have hloop : (Scan.objectLoop turns ⟨.key, [], none⟩).Does text ⟨n + 1, t⟩
        (extend [] (fields ⟨n + 1, t⟩).outcome) := by
      refine h.objectLoop rfl ?_
      simp only [ObjectLoop.meaning, ObjectState.weight]
      omega
    rwa [extend_nil] at hloop
  · rintro q ⟨ps, isOpen⟩ r ho
    obtain ⟨u, hpass, -⟩ := fields_sound q ho
    rw [hpass.pos]
    exact Nat.le_add_right _ _

/-- A loop that takes a turn and goes on from there comes to what it means. -/
theorem does_of_leads {σ ρ : Type} {m : Meaning σ ρ} {turn : Scan σ} {loop : σ → Scan ρ} {a : σ}
    (hturn : Leads m text turn a p) (hturns : m.turns a p ≤ turns + 1)
    (hloop : ∀ {b q}, m.Valid b q → m.turns b q ≤ turns → (loop b).Does text q (m.outcome b q)) :
    (turn >>= loop).Does text p (m.outcome a p) := by
  cases hturn with
  | fails hdoes houtcome =>
    rw [houtcome]
    exact hdoes.bind_error
  | goesOn hdoes houtcome hlt hvalid =>
    rw [← houtcome]
    exact hdoes.bind (hloop hvalid (by omega))

theorem Agrees.arrayLoop_succ {run : ArrayLoop} (h : Agrees text turns)
    (hvalid : ArrayLoop.meaning.Valid run p) (hturns : ArrayLoop.meaning.turns run p ≤ turns + 1) :
    (Scan.arrayLoop (turns + 1) run).Does text p (ArrayLoop.meaning.outcome run p) := by
  by_cases hstate : run.state = .done
  · obtain ⟨state, elements, rest?⟩ := run
    subst hstate
    exact does_pure _
  · have hvalue (hs : run.state = .element) :
        (Scan.value turns .element).Does text p (p.value .element).outcome := by
      refine h.value ?_
      simp only [ArrayLoop.meaning, hs, ArrayState.weight] at hturns
      omega
    have hdoes := does_of_leads (ArrayLoop.turn_leads hstate hvalid hvalue) hturns h.arrayLoop
    obtain ⟨state, elements, rest?⟩ := run
    cases state with
    | done => exact absurd rfl hstate
    | element | next => exact hdoes

theorem Agrees.objectLoop_succ {run : ObjectLoop} (h : Agrees text turns)
    (hvalid : ObjectLoop.meaning.Valid run p) (hturns : ObjectLoop.meaning.turns run p ≤ turns + 1) :
    (Scan.objectLoop (turns + 1) run).Does text p (ObjectLoop.meaning.outcome run p) := by
  by_cases hstate : run.state = .done
  · obtain ⟨state, pairs, rest?⟩ := run
    subst hstate
    exact does_pure _
  · have hvalue (name : Node Span) (hs : run.state = .value name) :
        (Scan.value turns .fieldValue).Does text p (p.value .fieldValue).outcome := by
      refine h.value ?_
      simp only [ObjectLoop.meaning, hs, ObjectState.weight] at hturns
      omega
    have hdoes := does_of_leads (ObjectLoop.turn_leads hstate hvalid hvalue) hturns h.objectLoop
    obtain ⟨state, pairs, rest?⟩ := run
    cases state with
    | done => exact absurd rfl hstate
    | key | colon | value | comma => exact hdoes

/-- No number of turns makes a scan do anything but what the reading does, as soon as it suffices. -/
theorem agrees (text : List Char) (turns : Nat) : Agrees text turns := by
  induction turns with
  | zero => exact agrees_zero text
  | succ turns h =>
    exact ⟨h.value_succ, h.array_succ, h.object_succ, h.arrayLoop_succ, h.objectLoop_succ⟩

end Agreement

end ValuePattern.Scan
