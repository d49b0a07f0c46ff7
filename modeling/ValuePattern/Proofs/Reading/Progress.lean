import ValuePattern.Proofs.Grammar.Completeness
import ValuePattern.Proofs.Grammar.Soundness
/-!
Readings of nodes make progress. Where a node is read, at least one character was taken, and the span
of the node lies between the two places.
-/
namespace ValuePattern

namespace Place

/-- A node that was read from one place up to another, and characters that were taken for it. -/
structure Progress (p : Place) (x : Node Span) (q : Place) : Prop where
  start_le : p.pos ≤ x.mark.start
  ordered : x.mark.start ≤ x.mark.stop
  stop_le : x.mark.stop ≤ q.pos
  pos_lt : p.pos < q.pos
  length_lt : q.ahead.length < p.ahead.length

end Place

namespace Grammar

open Place

variable {p q : Place} {s : Stop} {t : List Char} {n : Nat} {x : Node Span}

theorem IsTaken.mark_stop_le (h : IsTaken s t n x) :
    n < n + t.length ∧ x.mark.start ≤ x.mark.stop ∧ x.mark.stop ≤ n + t.length := by
  cases h with
  | value hx _ =>
    obtain ⟨c, u, rfl, -⟩ := hx.startsWith
    rw [hx.mark_eq]
    simp only [List.length_append, List.length_cons]
    omega
  | stop _ => simp [Node.mark]

theorem IsTaken.progress (h : IsTaken s t p.skipSpace.pos x) (hpass : p.skipSpace.Passes t q) :
    p.Progress x q := by
  obtain ⟨hlt, hordered, hstop⟩ := h.mark_stop_le
  have hblanks : p.pos ≤ p.skipSpace.pos := Nat.le_add_right _ _
  have hpos := hpass.pos
  have hahead := hpass.length_ahead
  have hle := p.skipSpace_le
  constructor
  · rw [h.mark_start]
    exact hblanks
  · exact hordered
  all_goals omega

end Grammar

namespace Place

open Grammar

variable {p q : Place} {s : Stop} {x : Node Span}

theorem value_progress (h : (p.value s).outcome = (.ok x, q)) : p.Progress x q := by
  obtain ⟨t, hpass, htaken⟩ := value_sound p h
  exact htaken.progress hpass

end Place

end ValuePattern
