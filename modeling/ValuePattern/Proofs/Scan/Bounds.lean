import ValuePattern.Proofs.Reading.Translation
import ValuePattern.Proofs.Scan.Agreement
/-!
Readings end, make progress and stay within the text. A cursor that starts in a text stays there
whatever steps it takes, those that end in an error included; and from wherever it stands, a reading
comes to its end in a number of turns that is linear in the text, with all its assertions true.
-/
namespace ValuePattern

open Place Grammar

/-- The readings that give a node. -/
inductive NodeReading where
  | value (s : Stop)
  | array
  | object
  | literal (s : Stop)
  | string

namespace NodeReading

variable {text : List Char} {p q : Place} {x : Node Span}

def reading : NodeReading → (p : Place) → Reading p (Node Span)
  | value s => Place.value s
  | array => Place.array
  | object => Place.object
  | literal s => Place.literal s
  | string => Place.string

/-- The scan in at most the given number of turns. -/
def scan (turns : Nat) : NodeReading → Scan (Node Span)
  | value s => Scan.value turns s
  | array => Scan.array turns
  | object => Scan.object turns
  | literal s => Scan.literal s
  | string => Scan.string

theorem scan_does (kind : NodeReading) {turns : Nat} (h : 4 * p.ahead.length + 2 ≤ turns) :
    (kind.scan turns).Does text p (kind.reading p).outcome := by
  have hagrees := Scan.agrees text turns
  cases kind with
  | value s => exact hagrees.value h
  | array => exact hagrees.array (by omega)
  | object => exact hagrees.object (by omega)
  | literal s => exact Scan.literal_does s
  | string => exact Scan.string_does

/-- Whatever is read as a node is taken as a value is. -/
theorem reading_sound (kind : NodeReading) (h : (kind.reading p).outcome = (.ok x, q)) :
    ∃ s t, p.skipSpace.Passes t q ∧ IsTaken s t p.skipSpace.pos x := by
  cases kind with
  | value s => exact ⟨s, value_sound p h⟩
  | array =>
    refine ⟨.element, value_sound p ?_⟩
    rw [reading, array_outcome] at h
    cases ho : (p.requireOpen '[' .array).outcome with
    | mk result r =>
      rw [ho] at h
      cases result with
      | error e => simp at h
      | ok _ =>
        obtain ⟨n, t, hp, rfl⟩ := skipSpace_of_requireOpen ho
        rw [value_outcome hp, if_neg (by decide), if_neg (by decide), if_pos rfl]
        exact h
  | object =>
    refine ⟨.fieldValue, value_sound p ?_⟩
    rw [reading, object_outcome] at h
    cases ho : (p.requireOpen '{' .object).outcome with
    | mk result r =>
      rw [ho] at h
      cases result with
      | error e => simp at h
      | ok _ =>
        obtain ⟨n, t, hp, rfl⟩ := skipSpace_of_requireOpen ho
        rw [value_outcome hp, if_neg (by decide), if_neg (by decide), if_neg (by decide),
          if_pos rfl]
        exact h
  | literal s =>
    rw [reading] at h
    obtain hnil | ⟨n, c, t, hp⟩ := p.skipSpace_cases
    · simp [literal_outcome_nil hnil] at h
    · obtain ⟨u, w, hpass, hw, hliteral⟩ := literal_sound hp h
      rw [hp]
      exact ⟨s, u ++ w, hpass, .value (.literal hliteral) hw⟩
  | string =>
    rw [reading] at h
    obtain hnil | ⟨n, c, t, hp⟩ := p.skipSpace_cases
    · simp [string_outcome_nil hnil] at h
    · by_cases hc : c = '"' ∨ c = '\''
      · obtain ⟨u, text, hpass, hquoted, rfl⟩ := string_sound hp hc h
        rw [hp]
        exact ⟨.blank, u ++ [], by simpa using hpass, .value (.string hquoted) Text.blanks_nil⟩
      · rw [not_or] at hc
        simp [string_outcome_of_ne hp hc.1 hc.2] at h

theorem reading_progress (kind : NodeReading) (h : (kind.reading p).outcome = (.ok x, q)) :
    p.Progress x q := by
  obtain ⟨s, t, hpass, htaken⟩ := kind.reading_sound h
  exact htaken.progress hpass

end NodeReading

namespace Cursor

/-- What can be done with a cursor. -/
inductive Step where
  | setPos (n : Nat)
  | advance (n : Nat)
  | skipSpace
  | require (what : Construct)
  | requireOpen (opening : Char) (what : Construct)
  | read (kind : NodeReading)
  | readKey

/-- The cursor after a step, whether the step succeeds or fails. -/
def take (c : Cursor) : Step → Cursor
  | .setPos n => c.setPos n
  | .advance n => c.advance n
  | .skipSpace => c.skipSpace
  | .require what => (c.run (Place.require what)).2
  | .requireOpen opening what => (c.run (Place.requireOpen opening what)).2
  | .read kind => (c.run kind.reading).2
  | .readKey => (c.run Place.key).2

/-- The cursor stands in the text, or at its end. -/
structure StandsIn (text : List Char) (c : Cursor) : Prop where
  text_eq : c.text = text
  pos_le : c.pos ≤ text.length

variable {text : List Char} {c : Cursor}

theorem StandsIn.liesIn (h : c.StandsIn text) : c.place.LiesIn text := by
  obtain ⟨rfl, hpos⟩ := h
  refine ⟨c.text.take c.pos, ?_, ?_⟩
  · exact (List.take_append_drop _ _).symm
  · simpa [place, Place.first] using hpos

theorem standsIn_setPos (h : c.text = text) (n : Nat) : (c.setPos n).StandsIn text := by
  subst h
  exact ⟨rfl, Nat.min_le_right _ _⟩

theorem StandsIn.run {α : Type} {reading : (p : Place) → Reading p α} (h : c.StandsIn text)
    (hreading : (reading c.place).place.LiesIn text) : (c.run reading).2.StandsIn text :=
  ⟨h.text_eq, hreading.pos_le⟩

theorem require_place (what : Construct) (p : Place) : (p.require what).place = p.skipSpace := by
  rw [Place.require]
  split <;> rfl

theorem requireOpen_place (opening : Char) (what : Construct) (p : Place) :
    (p.requireOpen opening what).place = p.skipSpace := by
  rw [Place.requireOpen]
  split
  · rfl
  · split <;> rfl

theorem StandsIn.take (h : c.StandsIn text) (step : Step) : (c.take step).StandsIn text := by
  have hskip := h.liesIn.passes c.place.passes_skipSpace
  cases step with
  | setPos n => exact standsIn_setPos h.text_eq n
  | advance n => exact standsIn_setPos h.text_eq _
  | skipSpace => exact standsIn_setPos h.text_eq _
  | require what => exact h.run (by rwa [require_place])
  | requireOpen opening what => exact h.run (by rwa [requireOpen_place])
  | read kind =>
    obtain ⟨-, hread⟩ := kind.scan_does (Nat.le_refl _) h.liesIn
    exact h.run hread
  | readKey =>
    obtain ⟨-, hread⟩ := Scan.key_does text c.place h.liesIn
    exact h.run hread

theorem StandsIn.foldl_take (h : c.StandsIn text) (steps : List Step) :
    (steps.foldl Cursor.take c).StandsIn text := by
  induction steps generalizing c with
  | nil => exact h
  | cons step steps ih => exact ih (h.take step)

/-- A scan that does what a reading does comes to what a run of the reading comes to. -/
theorem StandsIn.on_eq_run {α : Type} {reading : (p : Place) → Reading p α} {scan : Scan α}
    (h : c.StandsIn text) (hdoes : scan.Does text c.place (reading c.place).outcome) :
    scan.on c = some (c.run reading) := by
  have hon := (hdoes h.liesIn).1
  obtain ⟨rfl, -⟩ := h
  exact hon

theorem outcome_of_run {α : Type} {reading : (p : Place) → Reading p α} {a : α}
    (h : (c.run reading).1 = .ok a) :
    (reading c.place).outcome = (.ok a, (reading c.place).place) := by
  have hresult : (reading c.place).result = .ok a := by
    change (reading c.place).result.mapError c.error = .ok a at h
    cases hr : (reading c.place).result with
    | error e => simp [hr, Except.mapError] at h
    | ok b => simpa [hr, Except.mapError] using h
  rw [Reading.outcome, hresult]

/-- Reading ends, makes progress and stays within the text, from any position to begin with and after
any steps, failed ones included. The scan takes no more than so many turns, and that it gives a result
says that no span it makes ends before it starts. -/
theorem run_within (text : List Char) (n : Nat) (steps : List Step) (kind : NodeReading)
    (spare : Nat) :
    let c := steps.foldl take ((first text).setPos n)
    let reached := c.run kind.reading
    c.pos ≤ text.length ∧
      (kind.scan (4 * text.length + 2 + spare)).on c = some reached ∧
      c.pos ≤ reached.2.pos ∧ reached.2.pos ≤ text.length ∧
      ∀ x, reached.1 = .ok x →
        c.pos ≤ x.mark.start ∧ x.mark.stop ≤ reached.2.pos ∧ c.pos < reached.2.pos := by
  intro c reached
  have hstart : ((Cursor.first text).setPos n).StandsIn text :=
    standsIn_setPos (c := Cursor.first text) rfl n
  have hc : c.StandsIn text := hstart.foldl_take steps
  have hp := hc.liesIn
  have hlength : c.place.ahead.length ≤ text.length := by
    rw [← hp.stop_eq, Place.stop]
    exact Nat.le_add_left _ _
  have hturns : 4 * c.place.ahead.length + 2 ≤ 4 * text.length + 2 + spare := by omega
  have hdoes : (kind.scan _).Does text c.place _ := kind.scan_does hturns
  have hq := (hdoes hp).2
  refine ⟨hc.pos_le, hc.on_eq_run hdoes, hp.pos_le_pos hq (kind.reading c.place).le, hq.pos_le, ?_⟩
  intro x hx
  have hprogress := kind.reading_progress (outcome_of_run hx)
  exact ⟨hprogress.start_le, hprogress.stop_le, hprogress.pos_lt⟩

end Cursor

end ValuePattern
