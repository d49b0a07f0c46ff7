import ValuePattern.Node.Basic
import ValuePattern.Numeral
import ValuePattern.Place
/-!
The parts of a pattern that hold no values: words and numbers, strings, keys, and the signs between
the entries of an array or object. Every reading skips blanks first and ends right behind what it
read.
-/
namespace ValuePattern

namespace Node

/-- The node that an unquoted token stands for: a word of the language or a number. -/
def ofToken? (s : Span) (token : List Char) : Option (Node Span) :=
  if token = "true".toList then some (.boolean s true)
  else if token = "false".toList then some (.boolean s false)
  else if token = "null".toList then some (.null s)
  else if token = "missing".toList then some (.missing s)
  else (Numeral.read? token).map (.number s)

end Node

/-- The rest marker. -/
def restMarker : List Char := "...".toList

namespace Place

/-- Reads a word or a number up to a stop, without the blanks that it ends in. -/
def literal (s : Stop) (p : Place) : Reading p (Node Span) :=
  let q := p.skipSpace
  match q.ahead with
  | [] => .fail (.emptyField .value) ⟨p.pos, q.pos⟩ q p.skipSpace_le
  | _ :: _ =>
    let token := Text.trimEnd (s.token q.ahead)
    let span : Span := ⟨q.pos, q.pos + token.length⟩
    let r := q.skipToken s
    have le : r.ahead.length ≤ p.ahead.length := Nat.le_trans (q.skipToken_le s) p.skipSpace_le
    if token.isEmpty then .fail (.emptyField .value) q.spot r le
    else
      match Node.ofToken? span token with
      | some node => .done node r le
      | none => .fail (.invalidLiteral (String.ofList token)) span r le

/-- Reads a string in quotes. It has no escapes and ends at the next quote like its first. -/
def string (p : Place) : Reading p (Node Span) :=
  let q := p.skipSpace
  match h : q.ahead with
  | [] => .fail (.emptyField .string) ⟨p.pos, q.pos⟩ q p.skipSpace_le
  | quote :: inside =>
    have lt : inside.length < p.ahead.length := length_lt_of_skipSpace h
    if quote == '"' || quote == '\'' then
      let text := inside.takeWhile (· != quote)
      let stop := q.pos + text.length + 2
      match hi : inside.dropWhile (· != quote) with
      | [] => .fail (.unterminatedString quote) ⟨q.pos, q.stop⟩ ⟨q.pos + 1, inside⟩ (Nat.le_of_lt lt)
      | _ :: behind =>
        .done (.string ⟨q.pos, stop⟩ (String.ofList text)) ⟨stop, behind⟩ (by
          have le := (List.dropWhile_sublist (p := (· != quote)) (l := inside)).length_le
          rw [hi, List.length_cons] at le
          exact Nat.le_trans (Nat.le_of_succ_le le) (Nat.le_of_lt lt))
    else .fail (.unexpectedOpening .string quote) q.spot q p.skipSpace_le

/-- Reads the key of a field: a string in quotes, the rest marker, or a bare word, which may be
empty. -/
def key (p : Place) : Reading p (Node Span) :=
  let q := p.skipSpace
  match q.ahead with
  | [] => .fail (.emptyField .key) ⟨p.pos, q.pos⟩ q p.skipSpace_le
  | c :: _ =>
    if c == '"' || c == '\'' then p.string
    else if restMarker.isPrefixOf q.ahead then
      .done (.rest ⟨q.pos, q.pos + 3⟩) ⟨q.pos + 3, q.ahead.drop 3⟩
        (Nat.le_trans (List.drop_sublist 3 q.ahead).length_le p.skipSpace_le)
    else
      let r := q.skipToken .key
      if r.ahead.isEmpty then .fail .unterminatedKey ⟨q.pos, q.stop⟩ q p.skipSpace_le
      else
        .done (.string ⟨q.pos, r.pos⟩ (String.ofList (Stop.key.token q.ahead))) r
          (Nat.le_trans (q.skipToken_le .key) p.skipSpace_le)

/-- Reads the colon behind a key. -/
def colon (p : Place) : Reading p Unit :=
  let q := p.skipSpace
  match h : q.ahead with
  | [] => .fail .expectedColon q.spot q p.skipSpace_le
  | c :: t =>
    if c == ':' then .done () ⟨q.pos + 1, t⟩ (Nat.le_of_lt (length_lt_of_skipSpace h))
    else .fail .expectedColon q.spot q p.skipSpace_le

/-- Reads what comes behind an entry: the closing character, or a comma before another entry. Behind
a rest marker, whose span is then given, only the closing character may come. The result says whether
it was that one. -/
def delimiter (closing : Char) (otherwise : Cause) (rest? : Option Span) (p : Place) :
    Reading p Bool :=
  let q := p.skipSpace
  match h : q.ahead with
  | [] => .fail otherwise q.spot q p.skipSpace_le
  | c :: t =>
    have le : t.length ≤ p.ahead.length := Nat.le_of_lt (length_lt_of_skipSpace h)
    if c == closing then .done true ⟨q.pos + 1, t⟩ le
    else if c == ',' then
      rest?.elim (.done false ⟨q.pos + 1, t⟩ le) fun s =>
        .fail .restNotLast ⟨s.start, q.pos + 1⟩ q p.skipSpace_le
    else .fail otherwise q.spot q p.skipSpace_le

/-- A delimiter takes at least one character. -/
theorem length_lt_of_delimiter {closing : Char} {otherwise : Cause} {rest? : Option Span}
    {p q : Place} {closed : Bool} {le : q.ahead.length ≤ p.ahead.length}
    (h : p.delimiter closing otherwise rest? = ⟨.ok closed, q, le⟩) :
    q.ahead.length < p.ahead.length := by
  unfold delimiter at h
  dsimp only at h
  split at h
  · simp [Reading.fail] at h
  · rename_i c t ht
    have lt := length_lt_of_skipSpace ht
    split at h
    · simp only [Reading.done, Reading.mk.injEq] at h
      simpa [← h.2] using lt
    · split at h
      · cases rest? with
        | none =>
          simp only [Option.elim, Reading.done, Reading.mk.injEq] at h
          simpa [← h.2] using lt
        | some s => simp [Option.elim, Reading.fail] at h
      · simp [Reading.fail] at h

end Place

end ValuePattern
