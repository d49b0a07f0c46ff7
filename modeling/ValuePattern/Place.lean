import ValuePattern.Fault
import ValuePattern.Stop
/-!
Places in a text and readings from them. A place knows how many characters lie behind it and which
lie ahead, so no reading can depend on what is behind. A reading ends with a result or a fault, and
in either case at a place with no more ahead than where it began; that bound is what lets one reading
call another.
-/
namespace ValuePattern

/-- A place in a text: the number of characters behind it and the characters ahead. -/
structure Place where
  pos : Nat
  ahead : List Char
  deriving DecidableEq, Repr

namespace Place

/-- The place before the first character of a text. -/
def first (text : List Char) : Place := ⟨0, text⟩

/-- The position at the end of the text. -/
def stop (p : Place) : Nat := p.pos + p.ahead.length

/-- The span of the next character, empty at the end of the text. -/
def spot (p : Place) : Span := ⟨p.pos, p.pos + min 1 p.ahead.length⟩

/-- The place behind the blanks ahead. -/
def skipSpace (p : Place) : Place :=
  ⟨p.pos + (p.ahead.takeWhile Text.isBlank).length, p.ahead.dropWhile Text.isBlank⟩

/-- The place behind the token that ends at a stop. -/
def skipToken (s : Stop) (p : Place) : Place :=
  ⟨p.pos + (s.token p.ahead).length, s.after p.ahead⟩

theorem skipSpace_le (p : Place) : p.skipSpace.ahead.length ≤ p.ahead.length :=
  (List.dropWhile_sublist _).length_le

theorem skipToken_le (s : Stop) (p : Place) : (p.skipToken s).ahead.length ≤ p.ahead.length :=
  s.after_length_le _

/-- Less is ahead behind the first character that is no blank. -/
theorem length_lt_of_skipSpace {p : Place} {c : Char} {t : List Char}
    (h : p.skipSpace.ahead = c :: t) : t.length < p.ahead.length := by
  have le := p.skipSpace_le
  rw [h, List.length_cons] at le
  omega

/-- Skipping blanks leaves the end of the text where it is. -/
@[simp] theorem stop_skipSpace (p : Place) : p.skipSpace.stop = p.stop := by
  have h := congrArg List.length
    (List.takeWhile_append_dropWhile (p := Text.isBlank) (l := p.ahead))
  simp only [List.length_append] at h
  simp only [stop, skipSpace]
  omega

@[simp] theorem stop_skipToken (s : Stop) (p : Place) : (p.skipToken s).stop = p.stop := by
  have h := congrArg List.length (s.token_append_after p.ahead)
  simp only [List.length_append] at h
  simp only [stop, skipToken]
  omega

end Place

/-- What came of reading from a place: a result or a fault, and the place reached. -/
structure Reading (p : Place) (α : Type) where
  result : Except Fault α
  place : Place
  le : place.ahead.length ≤ p.ahead.length

namespace Reading

/-- A reading that blames a span, at the place reached. -/
def fail {p : Place} {α : Type} (cause : Cause) (span : Span) (q : Place)
    (le : q.ahead.length ≤ p.ahead.length) : Reading p α :=
  ⟨.error ⟨cause, span⟩, q, le⟩

/-- A reading that succeeds, at the place reached. -/
def done {p : Place} {α : Type} (a : α) (q : Place)
    (le : q.ahead.length ≤ p.ahead.length) : Reading p α :=
  ⟨.ok a, q, le⟩

/-- A reading as seen from an earlier place, with something made of its result and the place that
it reached. -/
def before {p q : Place} {α β : Type} (r : Reading q α) (le : q.ahead.length ≤ p.ahead.length)
    (f : α → Place → β) : Reading p β :=
  ⟨r.result.map fun a => f a r.place, r.place, Nat.le_trans r.le le⟩

@[simp] theorem before_place {p q : Place} {α β : Type} (r : Reading q α)
    (le : q.ahead.length ≤ p.ahead.length) (f : α → Place → β) :
    (r.before le f).place = r.place := rfl

@[simp] theorem before_result {p q : Place} {α β : Type} (r : Reading q α)
    (le : q.ahead.length ≤ p.ahead.length) (f : α → Place → β) :
    (r.before le f).result = r.result.map fun a => f a r.place := rfl

end Reading

namespace Place

/-- The next character that is no blank, which something of the kind `what` begins with. The
reading stops before that character. -/
def require (what : Construct) (p : Place) : Reading p Char :=
  let q := p.skipSpace
  match q.ahead with
  | [] => .fail (.emptyField what) ⟨p.pos, q.pos⟩ q p.skipSpace_le
  | c :: _ => .done c q p.skipSpace_le

/-- The same, where only one character may come next. -/
def requireOpen (opening : Char) (what : Construct) (p : Place) : Reading p Unit :=
  let q := p.skipSpace
  match q.ahead with
  | [] => .fail (.emptyField what) ⟨p.pos, q.pos⟩ q p.skipSpace_le
  | c :: _ =>
    if c == opening then .done () q p.skipSpace_le
    else .fail (.unexpectedOpening what c) q.spot q p.skipSpace_le

end Place

end ValuePattern
