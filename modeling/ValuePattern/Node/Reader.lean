import ValuePattern.Node.Token
/-!
Reading pattern trees. A value position that opens on its own stop gives that character as a string
one character long, by which an array sees its closing bracket and an object a value that is not
there. The three readings that call one another, `value`, `items` and `fields`, go on only where less
is ahead: a bracket or brace and a delimiter each take a character.
-/
namespace ValuePattern.Place

mutual

/-- Reads one value, whose unquoted tokens end at a stop. -/
def value (s : Stop) (p : Place) : Reading p (Node Span) :=
  let q := p.skipSpace
  match h : q.ahead with
  | [] => .fail (.emptyField .value) ⟨p.pos, q.pos⟩ q p.skipSpace_le
  | c :: t =>
    have lt : t.length < p.ahead.length := length_lt_of_skipSpace h
    if s.holds c then
      .done (.string ⟨q.pos, q.pos + 1⟩ (String.singleton c)) ⟨q.pos + 1, t⟩ (Nat.le_of_lt lt)
    else if c == '"' || c == '\'' then p.string
    else if c == '[' then
      (items ⟨q.pos + 1, t⟩).before (Nat.le_of_lt lt) fun (elements, isOpen) r =>
        .array ⟨q.pos, r.pos⟩ elements isOpen
    else if c == '{' then
      (fields ⟨q.pos + 1, t⟩).before (Nat.le_of_lt lt) fun (pairs, isOpen) r =>
        .object ⟨q.pos, r.pos⟩ pairs isOpen
    else if restMarker.isPrefixOf q.ahead then
      .done (.rest ⟨q.pos, q.pos + 3⟩) ⟨q.pos + 3, q.ahead.drop 3⟩
        (Nat.le_trans (List.drop_sublist 3 q.ahead).length_le p.skipSpace_le)
    else p.literal s
termination_by 2 * p.ahead.length
decreasing_by all_goals omega

/-- Reads the elements of an array behind its opening bracket, up to and with the closing one, and
whether a rest marker ends them. -/
def items (p : Place) : Reading p (List (Node Span) × Bool) :=
  match value .element p with
  | ⟨.error e, q, hq⟩ => ⟨.error e, q, hq⟩
  | ⟨.ok node, q, hq⟩ =>
    if node.isBare ']' then .done ([], false) q hq
    else if node.isBare ',' then .fail .missingElement ⟨p.pos, node.mark.stop⟩ q hq
    else
      match h : q.delimiter ']' .unterminatedElement node.restSpan? with
      | ⟨.error e, r, hr⟩ => ⟨.error e, r, Nat.le_trans hr hq⟩
      | ⟨.ok closed, r, hr⟩ =>
        have _lt : r.ahead.length < q.ahead.length := length_lt_of_delimiter h
        if node.isRest then .done ([], true) r (Nat.le_trans hr hq)
        else if closed then .done ([node], false) r (Nat.le_trans hr hq)
        else
          (items r).before (Nat.le_trans hr hq) fun (elements, isOpen) _ =>
            (node :: elements, isOpen)
termination_by 2 * p.ahead.length + 1
decreasing_by all_goals omega

/-- Reads the fields of an object behind its opening brace, up to and with the closing one, and
whether a rest marker ends them. -/
def fields (p : Place) : Reading p (List (Node Span × Node Span) × Bool) :=
  let q := p.skipSpace
  match h : q.ahead with
  | [] => .fail (.emptyField .key) ⟨p.pos, q.pos⟩ q p.skipSpace_le
  | c :: t =>
    if c == '}' then
      .done ([], false) ⟨q.pos + 1, t⟩ (Nat.le_of_lt (length_lt_of_skipSpace h))
    else
      match q.key with
      | ⟨.error e, r, hr⟩ => ⟨.error e, r, Nat.le_trans hr p.skipSpace_le⟩
      | ⟨.ok name, r, hr⟩ =>
        have ler : r.ahead.length ≤ p.ahead.length := Nat.le_trans hr p.skipSpace_le
        if name.isRest then
          (r.delimiter '}' .unterminatedField name.restSpan?).before ler fun _ _ => ([], true)
        else
          match r.colon with
          | ⟨.error e, u, hu⟩ => ⟨.error e, u, Nat.le_trans hu ler⟩
          | ⟨.ok (), u, hu⟩ =>
            have leu : u.ahead.length ≤ p.ahead.length := Nat.le_trans hu ler
            match value .fieldValue u with
            | ⟨.error e, v, hv⟩ => ⟨.error e, v, Nat.le_trans hv leu⟩
            | ⟨.ok content, v, hv⟩ =>
              have lev : v.ahead.length ≤ p.ahead.length := Nat.le_trans hv leu
              if content.isBare '}' then
                .fail .missingValue ⟨u.pos, content.mark.stop⟩ v lev
              else
                match hd : v.delimiter '}' .unterminatedField none with
                | ⟨.error e, w, hw⟩ => ⟨.error e, w, Nat.le_trans hw lev⟩
                | ⟨.ok closed, w, hw⟩ =>
                  have _lt : w.ahead.length < v.ahead.length := length_lt_of_delimiter hd
                  if closed then .done ([(name, content)], false) w (Nat.le_trans hw lev)
                  else
                    (fields w).before (Nat.le_trans hw lev) fun (pairs, isOpen) _ =>
                      ((name, content) :: pairs, isOpen)
termination_by 2 * p.ahead.length + 1
decreasing_by all_goals omega

end

/-- Reads an array. -/
def array (p : Place) : Reading p (Node Span) :=
  match p.requireOpen '[' .array with
  | ⟨.error e, q, le⟩ => ⟨.error e, q, le⟩
  | ⟨.ok (), q, le⟩ =>
    (items ⟨q.pos + 1, q.ahead.drop 1⟩).before
      (Nat.le_trans (List.drop_sublist 1 q.ahead).length_le le) fun (elements, isOpen) r =>
        .array ⟨q.pos, r.pos⟩ elements isOpen

/-- Reads an object. -/
def object (p : Place) : Reading p (Node Span) :=
  match p.requireOpen '{' .object with
  | ⟨.error e, q, le⟩ => ⟨.error e, q, le⟩
  | ⟨.ok (), q, le⟩ =>
    (fields ⟨q.pos + 1, q.ahead.drop 1⟩).before
      (Nat.le_trans (List.drop_sublist 1 q.ahead).length_le le) fun (pairs, isOpen) r =>
        .object ⟨q.pos, r.pos⟩ pairs isOpen

end ValuePattern.Place
