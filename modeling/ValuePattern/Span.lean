/-!
Spans of a text, counted in characters. A span names the characters from its start up to, and not
including, its stop. It records two places only, and is cut to a text when that text is read.
-/
namespace ValuePattern

/-- A half-open range of character positions. -/
structure Span where
  start : Nat
  stop : Nat
  deriving DecidableEq, Repr, Inhabited

namespace Span

/-- The empty span at a position. -/
def point (position : Nat) : Span := ⟨position, position⟩

/-- How many characters a span covers. -/
def length (s : Span) : Nat := s.stop - s.start

/-- A span is empty when it ends where it starts. -/
def isEmpty (s : Span) : Bool := s.start == s.stop

/-- The span as it stands once `n` characters are put before its text. -/
def shift (n : Nat) (s : Span) : Span := ⟨s.start + n, s.stop + n⟩

/-- The part of a text that a span names, as far as the text reaches. -/
def slice {α : Type} (s : Span) (text : List α) : List α := (text.take s.stop).drop s.start

@[simp] theorem length_point (n : Nat) : (point n).length = 0 := by simp [point, length]

@[simp] theorem length_shift (n : Nat) (s : Span) : (s.shift n).length = s.length := by
  simp only [shift, length]; omega

@[simp] theorem shift_zero (s : Span) : s.shift 0 = s := rfl

/-- The span of a part of a text names that part. -/
theorem slice_append {α : Type} (before u behind : List α) :
    slice ⟨before.length, before.length + u.length⟩ (before ++ u ++ behind) = u := by
  rw [slice, ← List.length_append, List.take_left, List.drop_left]

theorem shift_shift (m n : Nat) (s : Span) : (s.shift m).shift n = s.shift (m + n) := by
  simp [shift, Nat.add_assoc]

instance : ToString Span := ⟨fun s => toString s.start ++ ".." ++ toString s.stop⟩

end Span

end ValuePattern
