import ValuePattern.Cursor
import ValuePattern.Proofs.Grammar.Shift
import ValuePattern.Proofs.Reading.Behind
/-!
Readings do not see what is behind them. With some characters put before a text, everything is read
from it as before: the trees, the faults and the places that are reached are the same, moved by as
many characters. Each reading calls others from places that have moved with it, so one step after
another is the same, and by induction all of them are.
-/
namespace ValuePattern

namespace Node

variable {k : Nat} {x : Node Span}

theorem isBare_shift (c : Char) : (x.shift k).isBare c = x.isBare c := by
  cases x <;> simp [shift, map, isBare]

theorem mark_shift : (x.shift k).mark = x.mark.shift k := mark_map _ x

theorem ofToken?_shift (s : Span) (token : List Char) :
    ofToken? (s.shift k) token = (ofToken? s token).map (shift k) := by
  unfold ofToken?
  simp only [apply_ite (Option.map (shift k)), Option.map_map]
  rfl

end Node

theorem Span.shift_mk (k m n : Nat) : Span.shift k ⟨m, n⟩ = ⟨m + k, n + k⟩ := rfl

namespace Place

/-- The same place once `k` characters are put before the text. -/
def shift (k : Nat) (p : Place) : Place := ⟨p.pos + k, p.ahead⟩

/-- What a reading came to, once `k` characters are put before the text. -/
def shiftOutcome {α : Type} (move : Nat → α → α) (k : Nat) (r : Except Fault α × Place) :
    Except Fault α × Place :=
  ((r.1.map (move k)).mapError (Fault.shift k), r.2.shift k)

/-- Entries and whether they are open; the entries move. -/
def shiftEntries {α : Type} (move : Nat → α → α) (k : Nat) (entries : List α × Bool) :
    List α × Bool :=
  (entries.1.map (move k), entries.2)

section

variable {α : Type} {move : Nat → α → α} {k n : Nat} {p q : Place} {c : Char} {t : List Char}
variable {s : Stop}

@[simp] theorem shift_mk : shift k ⟨n, t⟩ = ⟨n + k, t⟩ := rfl

@[simp] theorem ahead_shift : (p.shift k).ahead = p.ahead := rfl

@[simp] theorem shiftOutcome_ok (a : α) :
    shiftOutcome move k (.ok a, p) = (.ok (move k a), p.shift k) := rfl

@[simp] theorem shiftOutcome_error (f : Fault) :
    shiftOutcome move k (.error f, p) = (.error (f.shift k), p.shift k) := rfl

theorem skipSpace_shift (k : Nat) (p : Place) : (p.shift k).skipSpace = p.skipSpace.shift k := by
  simp only [skipSpace, shift, Nat.add_right_comm]

theorem skipToken_shift (k : Nat) (s : Stop) (p : Place) :
    (p.shift k).skipToken s = (p.skipToken s).shift k := by
  simp only [skipToken, shift, Nat.add_right_comm]

theorem spot_shift (k : Nat) (p : Place) : (p.shift k).spot = p.spot.shift k := by
  simp only [spot, shift, Span.shift, Nat.add_right_comm]

theorem skipToken_shift_mk (k : Nat) (s : Stop) (n : Nat) (t : List Char) :
    skipToken s ⟨n + k, t⟩ = (skipToken s ⟨n, t⟩).shift k := skipToken_shift k s ⟨n, t⟩

theorem spot_shift_mk (k n : Nat) (t : List Char) :
    spot ⟨n + k, t⟩ = (spot ⟨n, t⟩).shift k := spot_shift k ⟨n, t⟩

theorem stop_shift (k : Nat) (p : Place) : (p.shift k).stop = p.stop + k := by
  simp only [stop, shift, Nat.add_right_comm]

theorem skipSpace_shift_of_eq (h : p.skipSpace = ⟨n, c :: t⟩) (k : Nat) :
    (p.shift k).skipSpace = ⟨n + k, c :: t⟩ := by
  rw [skipSpace_shift, h]
  rfl

theorem length_lt_of_delimiter_outcome {closing : Char} {otherwise : Cause} {rest? : Option Span}
    {closed : Bool} (h : (p.delimiter closing otherwise rest?).outcome = (.ok closed, q)) :
    q.ahead.length < p.ahead.length := by
  obtain ⟨hresult, rfl⟩ := Prod.mk.inj h
  have hread : p.delimiter closing otherwise rest? =
      ⟨.ok closed, (p.delimiter closing otherwise rest?).place, Reading.le _⟩ := by rw [← hresult]
  exact length_lt_of_delimiter hread

/-- The span of a token that begins where blanks end. -/
theorem span_shift (k n m : Nat) : (⟨n + k, n + k + m⟩ : Span) = Span.shift k ⟨n, n + m⟩ := by
  rw [Span.shift_mk, Nat.add_right_comm]

theorem literal_shift (h : p.skipSpace = ⟨n, c :: t⟩) (k : Nat) :
    ((p.shift k).literal s).outcome = shiftOutcome Node.shift k (p.literal s).outcome := by
  rw [literal_outcome h, literal_outcome (skipSpace_shift_of_eq h k)]
  dsimp only
  rw [skipToken_shift_mk, spot_shift_mk, span_shift, Node.ofToken?_shift]
  split
  · rfl
  · cases Node.ofToken? ⟨n, n + (Text.trimEnd (s.token (c :: t))).length⟩
      (Text.trimEnd (s.token (c :: t))) <;> rfl

theorem string_shift (h : p.skipSpace = ⟨n, c :: t⟩) (hc : c = '"' ∨ c = '\'') (k : Nat) :
    (p.shift k).string.outcome = shiftOutcome Node.shift k p.string.outcome := by
  have h' := skipSpace_shift_of_eq h k
  by_cases hclosed : c ∈ t
  · obtain ⟨inside, behind, rfl, hi⟩ := List.eq_append_cons_of_mem hclosed
    have hlength (m : Nat) : m + inside.length + 2 = m + (inside.length + 2) := Nat.add_assoc _ _ _
    rw [string_outcome h hc hi, string_outcome h' hc hi, hlength, hlength, span_shift,
      Nat.add_right_comm]
    rfl
  · rw [string_outcome_open h hc hclosed, string_outcome_open h' hc hclosed]
    simp only [shiftOutcome_error, shift_mk, Nat.add_right_comm, Fault.shift, Span.shift_mk,
      ← stop_shift]

theorem key_shift (h : p.skipSpace = ⟨n, c :: t⟩) (k : Nat) :
    (p.shift k).key.outcome = shiftOutcome Node.shift k p.key.outcome := by
  rw [key_outcome h, key_outcome (skipSpace_shift_of_eq h k)]
  dsimp only
  rw [skipToken_shift_mk, span_shift, ahead_shift]
  split
  · rename_i hc
    exact string_shift h hc k
  split
  · simp only [shiftOutcome_ok, shift_mk, Nat.add_right_comm]
    rfl
  split
  · simp only [shiftOutcome_error, shift_mk, Fault.shift, Span.shift_mk, ← stop_shift]
  · rfl

theorem colon_shift (k : Nat) (p : Place) :
    (p.shift k).colon.outcome = shiftOutcome (fun _ => id) k p.colon.outcome := by
  obtain hnil | ⟨n, c, t, h⟩ := p.skipSpace_cases
  · have hnil' : (p.shift k).skipSpace.ahead = [] := by rw [skipSpace_shift]; exact hnil
    rw [colon_outcome_nil hnil, colon_outcome_nil hnil', skipSpace_shift, spot_shift]
    rfl
  · rw [colon_outcome h, colon_outcome (skipSpace_shift_of_eq h k), spot_shift_mk]
    split
    · simp only [shiftOutcome_ok, shift_mk, Nat.add_right_comm, id]
    · rfl

theorem delimiter_shift {closing : Char} {otherwise : Cause} (k : Nat) (p : Place)
    (rest? : Option Span) :
    ((p.shift k).delimiter closing otherwise (rest?.map (Span.shift k))).outcome =
      shiftOutcome (fun _ => id) k (p.delimiter closing otherwise rest?).outcome := by
  obtain hnil | ⟨n, c, t, h⟩ := p.skipSpace_cases
  · have hnil' : (p.shift k).skipSpace.ahead = [] := by rw [skipSpace_shift]; exact hnil
    rw [delimiter_outcome_nil hnil, delimiter_outcome_nil hnil', skipSpace_shift, spot_shift]
    rfl
  · rw [delimiter_outcome h, delimiter_outcome (skipSpace_shift_of_eq h k), spot_shift_mk,
      Nat.add_right_comm n k]
    split
    · rfl
    split
    · cases rest? <;> rfl
    · rfl

/-- What is read behind an entry moves, given that all that is read further on does. -/
theorem behindEntry_shift {closing : Char} {otherwise : Cause}
    (read : Place → Except Fault (List α × Bool) × Place)
    (hread : ∀ r : Place, r.ahead.length < p.ahead.length →
      read (r.shift k) = shiftOutcome (shiftEntries move) k (read r))
    (as : List α) (rest? : Option Span) :
    behindEntry closing otherwise read (as.map (move k)) (rest?.map (Span.shift k)) (p.shift k) =
      shiftOutcome (shiftEntries move) k (behindEntry closing otherwise read as rest? p) := by
  rw [behindEntry, behindEntry, delimiter_shift]
  cases hd : (p.delimiter closing otherwise rest?).outcome with
  | mk result r =>
    cases result with
    | error f => rfl
    | ok isClosed =>
      cases isClosed with
      | true => cases rest? <;> rfl
      | false =>
        simp only [shiftOutcome_ok, id, hread r (length_lt_of_delimiter_outcome hd)]
        obtain ⟨result, u⟩ := read r
        cases result with
        | error f => rfl
        | ok entries => simp [shiftOutcome, shiftEntries, extend, Except.map, Except.mapError]

theorem behindColon_shift (hvalue : ((p.shift k).value .fieldValue).outcome =
      shiftOutcome Node.shift k (p.value .fieldValue).outcome)
    (hfields : ∀ r : Place, r.ahead.length < p.ahead.length → (fields (r.shift k)).outcome =
      shiftOutcome (shiftEntries Node.shiftPair) k (fields r).outcome)
    (ps : List (Node Span × Node Span)) (name : Node Span) :
    behindColon (ps.map (Node.shiftPair k)) (name.shift k) (p.shift k) =
      shiftOutcome (shiftEntries Node.shiftPair) k (behindColon ps name p) := by
  rw [behindColon, behindColon, hvalue]
  cases hv : (p.value .fieldValue).outcome with
  | mk result q =>
    cases result with
    | error f => rfl
    | ok x =>
      simp only [shiftOutcome_ok, Node.isBare_shift, Node.mark_shift]
      split
      · rfl
      · have hread (r : Place) (hr : r.ahead.length < q.ahead.length) :=
          hfields r (Nat.lt_of_lt_of_le hr (length_le_of_outcome hv))
        rw [← behindEntry_shift (fun q => (fields q).outcome) hread, List.map_append]
        rfl

theorem behindKey_shift (hvalue : ∀ q : Place, q.ahead.length ≤ p.ahead.length →
      ((q.shift k).value .fieldValue).outcome =
        shiftOutcome Node.shift k (q.value .fieldValue).outcome)
    (hfields : ∀ r : Place, r.ahead.length < p.ahead.length → (fields (r.shift k)).outcome =
      shiftOutcome (shiftEntries Node.shiftPair) k (fields r).outcome)
    (ps : List (Node Span × Node Span)) (name : Node Span) :
    behindKey (ps.map (Node.shiftPair k)) (name.shift k) (p.shift k) =
      shiftOutcome (shiftEntries Node.shiftPair) k (behindKey ps name p) := by
  rw [behindKey, behindKey, colon_shift]
  cases hcolon : p.colon.outcome with
  | mk result q =>
    cases result with
    | error f => rfl
    | ok _ =>
      have hlength := length_le_of_outcome hcolon
      exact behindColon_shift (hvalue q hlength)
        (fun r hr => hfields r (Nat.lt_of_lt_of_le hr hlength)) ps name

end

mutual

/-- A value is read from a text with `k` characters put before it as from the text itself. -/
theorem value_shift (k : Nat) (p : Place) {s : Stop} :
    ((p.shift k).value s).outcome = shiftOutcome Node.shift k (p.value s).outcome := by
  obtain hnil | ⟨n, c, t, h⟩ := p.skipSpace_cases
  · have hnil' : (p.shift k).skipSpace.ahead = [] := by rw [skipSpace_shift]; exact hnil
    rw [value_outcome_nil hnil, value_outcome_nil hnil', skipSpace_shift]
    rfl
  · have lt : t.length < p.ahead.length := length_lt_of_skipSpace (by rw [h])
    have hinside : (⟨n + k + 1, t⟩ : Place) = Place.shift k ⟨n + 1, t⟩ := by
      rw [shift_mk, Nat.add_right_comm]
    rw [value_outcome h, value_outcome (skipSpace_shift_of_eq h k), hinside,
      items_shift k ⟨n + 1, t⟩, fields_shift k ⟨n + 1, t⟩]
    split
    · rw [span_shift]
      rfl
    split
    · rename_i hc
      exact string_shift h hc k
    split
    · obtain ⟨result, q⟩ := (items ⟨n + 1, t⟩).outcome
      cases result with
      | error f => rfl
      | ok entries =>
        exact congrArg (fun x => (Except.ok x, q.shift k)) (Node.shift_array k ⟨n, q.pos⟩ _ _).symm
    split
    · obtain ⟨result, q⟩ := (fields ⟨n + 1, t⟩).outcome
      cases result with
      | error f => rfl
      | ok entries =>
        exact congrArg (fun x => (Except.ok x, q.shift k)) (Node.shift_object k ⟨n, q.pos⟩ _ _).symm
    split
    · rw [span_shift, Nat.add_right_comm n k]
      rfl
    · exact literal_shift h k
termination_by 2 * p.ahead.length

theorem items_shift (k : Nat) (p : Place) :
    (items (p.shift k)).outcome = shiftOutcome (shiftEntries Node.shift) k (items p).outcome := by
  rw [← extend_nil (items (p.shift k)).outcome, ← extend_nil (items p).outcome, extend_items,
    extend_items, value_shift k p]
  cases hv : (p.value .element).outcome with
  | mk result q =>
    cases result with
    | error f => rfl
    | ok x =>
      have hread (r : Place) (hr : r.ahead.length < q.ahead.length) :=
        have lt : r.ahead.length < p.ahead.length := Nat.lt_of_lt_of_le hr (length_le_of_outcome hv)
        items_shift k r
      simp only [shiftOutcome_ok, Node.isBare_shift, Node.isRest_shift, Node.mark_shift]
      split
      · rfl
      split
      · rfl
      split
      · exact behindEntry_shift (fun q => (items q).outcome) hread [] (some x.mark)
      · exact behindEntry_shift (fun q => (items q).outcome) hread [x] none
termination_by 2 * p.ahead.length + 1

theorem fields_shift (k : Nat) (p : Place) :
    (fields (p.shift k)).outcome =
      shiftOutcome (shiftEntries Node.shiftPair) k (fields p).outcome := by
  obtain hnil | ⟨n, c, t, h⟩ := p.skipSpace_cases
  · have hnil' : (p.shift k).skipSpace.ahead = [] := by rw [skipSpace_shift]; exact hnil
    rw [fields_outcome_nil hnil, fields_outcome_nil hnil', skipSpace_shift]
    rfl
  rw [← extend_nil (fields (p.shift k)).outcome, ← extend_nil (fields p).outcome,
    extend_fields [] h, extend_fields [] (skipSpace_shift_of_eq h k), skipSpace_shift,
    key_shift (p.skipSpace_skipSpace.trans h) k]
  split
  · rw [Nat.add_right_comm]
    rfl
  cases hk : p.skipSpace.key.outcome with
  | mk result q =>
    cases result with
    | error f => rfl
    | ok name =>
      have hlength : q.ahead.length ≤ p.ahead.length :=
        Nat.le_trans (length_le_of_outcome hk) p.skipSpace_le
      have hvalue (r : Place) (hr : r.ahead.length ≤ q.ahead.length) :=
        have le : r.ahead.length ≤ p.ahead.length := Nat.le_trans hr hlength
        value_shift k r (s := .fieldValue)
      have hread (r : Place) (hr : r.ahead.length < q.ahead.length) :=
        have lt : r.ahead.length < p.ahead.length := Nat.lt_of_lt_of_le hr hlength
        fields_shift k r
      simp only [shiftOutcome_ok, Node.isRest_shift, Node.mark_shift]
      split
      · exact behindEntry_shift (fun q => (fields q).outcome) hread [] (some name.mark)
      · exact behindKey_shift hvalue hread [] name
termination_by 2 * p.ahead.length + 1

end

end Place

/-- An error of a text as it is once characters are put before the text: the same cause, with the
span moved; the source is the whole text then. -/
def SyntaxError.shift (before whole : List Char) (e : SyntaxError) : SyntaxError :=
  ⟨String.ofList whole, ⟨0, whole.length⟩, e.fault.shift before.length, e.help⟩

namespace Cursor

/-- What a run comes to, in terms of what the reading does from where the cursor stands. -/
theorem run_eq {α : Type} (c : Cursor) (reading : (p : Place) → Reading p α) :
    c.run reading = ((reading c.place).outcome.1.mapError c.error,
      ⟨c.text, (reading c.place).outcome.2.pos⟩) := rfl

/-- The parser does not look behind its position. What is read from behind a text is what is read
from the beginning where that text is not there, with the tree, the span that is blamed and the
position reached moved by its length; only the source that an error names is the whole text. -/
theorem run_value_append (before text : List Char) (s : Stop) :
    let alone := run ⟨text, 0⟩ (Place.value s)
    run ⟨before ++ text, before.length⟩ (Place.value s) =
      ((alone.1.map (Node.shift before.length)).mapError (SyntaxError.shift before (before ++ text)),
        ⟨before ++ text, alone.2.pos + before.length⟩) := by
  intro alone
  have hplace : place ⟨before ++ text, before.length⟩ =
      (place ⟨text, 0⟩).shift before.length := by
    simp [place, ahead]
  have halone : alone = _ := run_eq ⟨text, 0⟩ (Place.value s)
  rw [run_eq, hplace, Place.value_shift, halone]
  obtain ⟨result, p⟩ := ((place ⟨text, 0⟩).value s).outcome
  cases result with
  | ok x => rfl
  | error f =>
    have herror : error ⟨before ++ text, before.length⟩ (f.shift before.length) =
        (error ⟨text, 0⟩ f).shift before (before ++ text) := by
      simp [error, SyntaxError.ofFault, SyntaxError.shift]
    exact congrArg (fun e => (Except.error e, _)) herror

end Cursor

end ValuePattern
