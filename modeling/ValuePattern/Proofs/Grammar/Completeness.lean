import ValuePattern.Proofs.Grammar.Literal
import ValuePattern.Proofs.Reading.Passage
import ValuePattern.Proofs.Reading.Step
/-!
What the grammar derives is read, and with the same tree. A literal is read up to its stop, so what
comes behind a value must let it end there; the other values end by themselves. A literal in a field
may also take the blanks behind it, and so the place reached is told only up to blanks.
-/
namespace ValuePattern

open Text Place

/-- A stop that holds nothing but blanks and the signs that may stand behind a value. -/
def Stop.Separates (s : Stop) : Prop :=
  ∀ c, s.holds c = true → isBlank c = true ∨ c = ',' ∨ c = ']' ∨ c = '}'

/-- A text before which a token ends: blanks, and then nothing or a character of the stop. -/
def Stop.EndsBefore (s : Stop) (r : List Char) : Prop :=
  ∃ w u, Blanks w ∧ StartsSolid u ∧ r = w ++ u ∧ ∀ c ∈ u.head?, s.holds c = true

namespace Stop

theorem Separates.holds_eq_false {s : Stop} {c : Char} (hs : s.Separates) (hb : isBlank c = false)
    (hcomma : c ≠ ',') (hbracket : c ≠ ']') (hbrace : c ≠ '}') : s.holds c = false := by
  by_contra h
  rcases hs c (by simpa using h) with h | h | h | h <;> simp_all

/-- No token has to stop on a character that begins a string, array, object or rest marker. -/
theorem Separates.holds_opening {s : Stop} {c : Char} (hs : s.Separates)
    (hc : c ∈ ['"', '\'', '[', '{', '.']) : s.holds c = false := by
  simp only [List.mem_cons, List.not_mem_nil, or_false] at hc
  rcases hc with rfl | rfl | rfl | rfl | rfl <;>
    exact hs.holds_eq_false (by decide) (by decide) (by decide) (by decide)

theorem separates_blank : blank.Separates := by
  intro c hc
  exact .inl hc

theorem separates_element : element.Separates := by
  intro c hc
  simp only [holds_among_iff, true_and, List.mem_cons, List.not_mem_nil, or_false] at hc
  rcases hc with hc | hc | hc <;> simp [hc]

theorem separates_fieldValue : fieldValue.Separates := by
  intro c hc
  simp only [holds_among_iff, Bool.false_eq_true, false_and, false_or, List.mem_cons,
    List.not_mem_nil, or_false] at hc
  rcases hc with hc | hc <;> simp [hc]

theorem endsBefore_append {s : Stop} {w r : List Char} {c : Char} (hw : Blanks w)
    (hc : isBlank c = false) (hs : s.holds c = true) : s.EndsBefore (w ++ c :: r) :=
  ⟨w, c :: r, hw, by simpa using hc, rfl, by simpa using hs⟩

/-- Of the blanks before a character that it holds, a stop lets a token take some. -/
theorem token_blanks {s : Stop} {u : List Char} (w : List Char)
    (hu : ∀ c ∈ u.head?, s.holds c = true) :
    ∃ v v', w = v ++ v' ∧ s.token (w ++ u) = v ∧ s.after (w ++ u) = v' ++ u := by
  induction w with
  | nil =>
    refine ⟨[], [], rfl, ?_⟩
    cases u with
    | nil => exact ⟨rfl, rfl⟩
    | cons c u => simp [token, after, hu c rfl]
  | cons d w ih =>
    obtain ⟨v, v', rfl, htoken, hafter⟩ := ih
    cases hd : s.holds d with
    | true => exact ⟨[], d :: (v ++ v'), by simp, by simp [token, hd], by simp [after, hd]⟩
    | false =>
      refine ⟨d :: v, v', by simp, ?_, ?_⟩
      · simpa [token, hd] using htoken
      · simpa [after, hd] using hafter

/-- A token before a character of its stop ends there. -/
theorem token_append_stop {s : Stop} {t r : List Char} (ht : ∀ c ∈ t, s.holds c = false)
    (hr : ∀ c ∈ r.head?, s.holds c = true) : s.token (t ++ r) = t ∧ s.after (t ++ r) = r := by
  have hfree : ∀ c ∈ t, (!s.holds c) = true := by simpa using ht
  rw [token, after, List.takeWhile_append_of_pos hfree, List.dropWhile_append_of_pos hfree]
  cases r with
  | nil => simp
  | cons c r => simp [hr c rfl]

/-- The token before a text that ends it takes some of the blanks there, and skipping the others
leads to the same place. -/
theorem token_append {s : Stop} {t r : List Char} (n : Nat) (ht : ∀ c ∈ t, s.holds c = false)
    (hr : s.EndsBefore r) :
    ∃ w, Blanks w ∧ s.token (t ++ r) = t ++ w ∧
      (skipToken s ⟨n, t ++ r⟩).skipSpace = Place.skipSpace ⟨n + t.length, r⟩ := by
  obtain ⟨w, u, hw, hu, rfl, hs⟩ := hr
  obtain ⟨v, v', rfl, htoken, hafter⟩ := token_blanks w hs
  obtain ⟨hv, hv'⟩ := blanks_append.mp hw
  have hfree : ∀ c ∈ t, (!s.holds c) = true := by simpa using ht
  have htoken' : s.token (t ++ (v ++ v' ++ u)) = t ++ v := by
    rw [token, List.takeWhile_append_of_pos hfree]
    exact congrArg (t ++ ·) htoken
  have hafter' : s.after (t ++ (v ++ v' ++ u)) = v' ++ u := by
    rw [after, List.dropWhile_append_of_pos hfree]
    exact hafter
  refine ⟨v, hv, htoken', ?_⟩
  rw [skipToken, htoken', hafter', skipSpace_append hv' hu, skipSpace_append hw hu]
  simp [Nat.add_assoc]

end Stop

namespace Grammar

variable {p : Place} {n : Nat} {t r : List Char} {x : Node Span} {s : Stop}

/-- A character of a literal ends no token. -/
theorem IsLiteral.holds_eq_false (h : IsLiteral t ⟨n, n + t.length⟩ x) (hs : s.Separates) :
    ∀ c ∈ t, s.holds c = false := by
  intro c hc
  have hplain := h.isPlain c hc
  have ne {d : Char} (hd : Text.isPlain d = false) : c ≠ d := ne_of_isPlain hplain hd
  exact hs.holds_eq_false (isBlank_of_isPlain hplain) (ne (by decide)) (ne (by decide))
    (ne (by decide))

theorem literal_complete (h : IsLiteral t ⟨n, n + t.length⟩ x) (hs : s.Separates)
    (hr : s.EndsBefore r) (hp : p.skipSpace = ⟨n, t ++ r⟩) :
    ∃ q, (p.literal s).outcome = (.ok x, q) ∧
      q.skipSpace = Place.skipSpace ⟨n + t.length, r⟩ := by
  obtain ⟨w, hw, htoken, hskip⟩ := Stop.token_append n (h.holds_eq_false hs) hr
  have htrim : trimEnd (s.token (t ++ r)) = t := by
    rw [htoken]
    exact trimEnd_append (fun c hc => isBlank_of_isPlain (h.isPlain c hc)) hw
  refine ⟨skipToken s ⟨n, t ++ r⟩, ?_, hskip⟩
  cases ht : t ++ r with
  | nil => exact absurd (List.append_eq_nil_iff.mp ht).1 h.ne_nil
  | cons c u =>
    rw [ht] at hp htrim
    rw [literal_outcome hp]
    simp [htrim, h.ne_nil, ofToken?_eq_some_iff.mpr h]

/-- A quoted text is read as a string wherever it stands. -/
theorem string_complete {text : String} (h : IsQuoted t text) (hp : p.skipSpace = ⟨n, t ++ r⟩) :
    p.string.outcome = (.ok (.string ⟨n, n + t.length⟩ text), ⟨n + t.length, r⟩) := by
  cases h with
  | @intro quote inside hquote hinside =>
    rw [string_outcome (by simpa using hp) hquote hinside]
    simp [Nat.add_assoc]

/-- The first character of a value is no blank and none of the signs that may stand behind one. -/
theorem IsValue.startsWith (h : IsValue t n x) :
    ∃ c u, t = c :: u ∧ isBlank c = false ∧ c ≠ ',' ∧ c ≠ ']' ∧ c ≠ '}' := by
  cases h with
  | string h =>
    cases h with
    | intro hq _ => rcases hq with rfl | rfl <;> exact ⟨_, _, rfl, by decide⟩
  | literal h =>
    cases t with
    | nil => exact absurd rfl h.ne_nil
    | cons c u =>
      have hplain := h.isPlain c List.mem_cons_self
      have ne {d : Char} (hd : Text.isPlain d = false) : c ≠ d := ne_of_isPlain hplain hd
      exact ⟨c, u, rfl, isBlank_of_isPlain hplain, ne (by decide), ne (by decide), ne (by decide)⟩
  | rest => exact ⟨_, _, rfl, by decide⟩
  | array _ _ => exact ⟨_, _, rfl, by decide⟩
  | object _ => exact ⟨_, _, rfl, by decide⟩

theorem IsValue.startsSolid (h : IsValue t n x) (r : List Char) : StartsSolid (t ++ r) := by
  obtain ⟨c, u, rfl, hc, -⟩ := h.startsWith
  simpa using hc

/-- Wherever the text of a value stands, with blanks before it and its end behind it, reading gives
its tree and passes it. -/
def IsRead (t : List Char) (n : Nat) (x : Node Span) : Prop :=
  ∀ {s : Stop} {p : Place} {r : List Char}, s.Separates → s.EndsBefore r →
    p.skipSpace = ⟨n, t ++ r⟩ →
    ∃ q, (p.value s).outcome = (.ok x, q) ∧ q.skipSpace = Place.skipSpace ⟨n + t.length, r⟩

theorem isRead_rest : IsRead restMarker n (.rest ⟨n, n + restMarker.length⟩) := by
  intro s p r hs _ hp
  have hdot : s.holds '.' = false := hs.holds_opening (by decide)
  refine ⟨⟨n + restMarker.length, r⟩, ?_, rfl⟩
  have hp' : p.skipSpace = ⟨n, '.' :: ('.' :: '.' :: r)⟩ := hp
  have hmarker : restMarker <+: '.' :: '.' :: '.' :: r := ⟨r, rfl⟩
  rw [value_outcome hp']
  simp [hdot, hmarker]
  rfl

theorem isRead_string {text : String} (h : IsQuoted t text) :
    IsRead t n (.string ⟨n, n + t.length⟩ text) := by
  intro s p r hs _ hp
  refine ⟨⟨n + t.length, r⟩, ?_, rfl⟩
  rw [← string_complete h hp]
  cases h with
  | @intro quote inside hquote _ =>
    have hholds : s.holds quote = false := by
      rcases hquote with rfl | rfl <;> exact hs.holds_opening (by decide)
    have hp' : p.skipSpace = ⟨n, quote :: (inside ++ quote :: r)⟩ := by simpa using hp
    rw [value_outcome hp']
    simp [hholds, hquote]

theorem isRead_literal (h : IsLiteral t ⟨n, n + t.length⟩ x) : IsRead t n x := by
  intro s p r hs hr hp
  obtain ⟨q, hq, hskip⟩ := literal_complete h hs hr hp
  refine ⟨q, ?_, hskip⟩
  cases t with
  | nil => exact absurd rfl h.ne_nil
  | cons c u =>
    have hplain := h.isPlain c List.mem_cons_self
    have ne {d : Char} (hd : Text.isPlain d = false) : c ≠ d := ne_of_isPlain hplain hd
    have hholds := h.holds_eq_false hs c List.mem_cons_self
    have hrest := h.not_restMarker_prefix r
    rw [List.cons_append] at hp hrest
    rw [value_outcome hp, ← hq]
    have hquote : c ≠ '"' := ne (by decide)
    have hsingle : c ≠ '\'' := ne (by decide)
    have hbracket : c ≠ '[' := ne (by decide)
    have hbrace : c ≠ '{' := ne (by decide)
    simp [hholds, hrest, hquote, hsingle, hbracket, hbrace]

theorem delimiter_closing {closing : Char} {otherwise : Cause} {rest? : Option Span} {q : Place}
    {w : List Char} (hq : q.skipSpace = Place.skipSpace ⟨n, w ++ closing :: r⟩) (hw : Blanks w)
    (hc : isBlank closing = false) :
    (q.delimiter closing otherwise rest?).outcome = (.ok true, ⟨n + w.length + 1, r⟩) := by
  rw [skipSpace_append hw (startsSolid_cons.mpr hc)] at hq
  simp [delimiter_outcome hq]

theorem delimiter_comma {closing : Char} {otherwise : Cause} {q : Place} {w : List Char}
    (hq : q.skipSpace = Place.skipSpace ⟨n, w ++ ',' :: r⟩) (hw : Blanks w) (hc : ',' ≠ closing) :
    (q.delimiter closing otherwise none).outcome = (.ok false, ⟨n + w.length + 1, r⟩) := by
  rw [skipSpace_append hw (startsSolid_cons.mpr (by decide))] at hq
  simp [delimiter_outcome hq, hc]

section Elements

variable {w u : List Char} {c : Char}

/-- An element is read with the blanks around it, if a bracket or a comma stands behind them. -/
theorem element_complete (hw : Blanks w) (hx : IsValue t (n + w.length) x)
    (hread : IsRead t (n + w.length) x) (hu : Blanks u) (hc : c = ']' ∨ c = ',') :
    ∃ v, (Place.value .element ⟨n, w ++ t ++ u ++ c :: r⟩).outcome = (.ok x, v) ∧
      v.skipSpace = Place.skipSpace ⟨n + w.length + t.length, u ++ c :: r⟩ := by
  refine hread Stop.separates_element (Stop.endsBefore_append hu ?_ ?_) ?_
  · rcases hc with rfl | rfl <;> decide
  · rcases hc with rfl | rfl <;> decide
  · simpa using skipSpace_append (n := n) hw (hx.startsSolid (u ++ c :: r))

/-- The elements of an array are read up to and with the closing bracket. -/
theorem items_complete {xs : List (Node Span)} {isOpen : Bool}
    (h : Body ']' (fun t n x => IsValue t n x ∧ IsRead t n x) t n xs isOpen)
    (hrest : ∀ x ∈ xs, x.isRest = false) (r : List Char) :
    (items ⟨n, t ++ r⟩).outcome = (.ok (xs, isOpen), ⟨n + t.length, r⟩) := by
  refine Body.induction (motive := fun t n xs isOpen => (∀ x ∈ xs, x.isRest = false) →
    ∀ r z, z = t ++ r → (items ⟨n, z⟩).outcome = (.ok (xs, isOpen), ⟨n + t.length, r⟩))
    ?empty ?rest ?last ?cons h hrest r _ rfl
  case empty =>
    intro w n hw _ r z hz
    obtain rfl : z = w ++ ']' :: r := by simpa using hz
    have hp : Place.skipSpace ⟨n, w ++ ']' :: r⟩ = ⟨n + w.length, ']' :: r⟩ :=
      skipSpace_append hw (startsSolid_cons.mpr (by decide))
    have hv : (Place.value .element ⟨n, w ++ ']' :: r⟩).outcome =
        (.ok (.string ⟨n + w.length, n + w.length + 1⟩ "]"), ⟨n + w.length + 1, r⟩) := by
      rw [value_outcome hp]
      rfl
    simpa [Nat.add_assoc] using items_eq_ok_iff.mpr (.close hv (Node.isBare_singleton.mpr rfl))
  case rest =>
    intro w u n hw hu _ r z hz
    obtain rfl : z = w ++ restMarker ++ u ++ ']' :: r := by simpa using hz
    obtain ⟨v, hv, hskip⟩ := element_complete (r := r) hw .rest isRead_rest hu (.inl rfl)
    have h := items_eq_ok_iff.mpr
      (.rest hv rfl (delimiter_closing hskip hu (by decide)))
    simpa [Nat.add_assoc] using h
  case last =>
    rintro w t u n x hw ⟨hx, hread⟩ hu hrest r z hz
    obtain rfl : z = w ++ t ++ u ++ ']' :: r := by simpa using hz
    obtain ⟨v, hv, hskip⟩ := element_complete (r := r) hw hx hread hu (.inl rfl)
    have hstep : ElementStep ⟨n, w ++ t ++ u ++ ']' :: r⟩ x v :=
      ⟨hv, hx.isBare_eq_false _, hx.isBare_eq_false _, hrest x List.mem_cons_self⟩
    have h := items_eq_ok_iff.mpr
      (.last hstep (delimiter_closing hskip hu (by decide)))
    simpa [Nat.add_assoc] using h
  case cons =>
    rintro w t u v n x xs isOpen hw ⟨hx, hread⟩ hu ih hrest r z hz
    obtain rfl : z = w ++ t ++ u ++ ',' :: (v ++ r) := by simpa using hz
    obtain ⟨q, hv, hskip⟩ := element_complete (r := v ++ r) hw hx hread hu (.inr rfl)
    have hstep : ElementStep ⟨n, w ++ t ++ u ++ ',' :: (v ++ r)⟩ x q :=
      ⟨hv, hx.isBare_eq_false _, hx.isBare_eq_false _, hrest x List.mem_cons_self⟩
    have hi := ih (fun y hy => hrest y (List.mem_cons_of_mem _ hy)) r _ rfl
    rw [List.length_append, List.length_append, ← Nat.add_assoc, ← Nat.add_assoc] at hi
    have h := items_eq_ok_iff.mpr (.next hstep (delimiter_comma hskip hu (by decide)) hi)
    simpa [Nat.add_assoc, Nat.add_comm 1] using h

end Elements

section Fields

variable {k w u z : List Char} {c : Char} {key : Node Span}

/-- What a key begins with, or the colon behind an empty one, is no blank and no brace. -/
theorem IsKey.startsWith (h : IsKey k n key) (hempty : k = [] → w = []) :
    ∃ c t, k ++ (w ++ ':' :: z) = c :: t ∧ isBlank c = false ∧ c ≠ '}' := by
  cases h with
  | quoted h =>
    cases h with
    | intro hq _ => rcases hq with rfl | rfl <;> exact ⟨_, _, rfl, by decide⟩
  | bare hk _ _ _ =>
    cases k with
    | nil =>
      rw [hempty rfl]
      exact ⟨':', z, rfl, by decide⟩
    | cons c k =>
      obtain ⟨hblank, -, hbrace⟩ := hk c List.mem_cons_self
      exact ⟨c, _, rfl, hblank, hbrace⟩

/-- What stands behind a bare key does not make it begin with the rest marker. -/
theorem not_restMarker_prefix_append (hk : ¬restMarker <+: k) (hw : Blanks w) :
    ¬restMarker <+: k ++ (w ++ ':' :: z) := by
  intro h
  rcases List.prefix_or_prefix_of_prefix h (List.prefix_append k _) with h' | ⟨v, hv⟩
  · exact hk h'
  · rw [← hv, List.prefix_append_right_inj] at h
    cases v with
    | nil => exact hk ⟨[], by simpa using hv.symm⟩
    | cons d v =>
      obtain rfl : d = '.' := by
        have hd : d ∈ restMarker := by simp [← hv]
        simpa [restMarker] using hd
      cases w with
      | nil => simp at h
      | cons b w =>
        obtain ⟨rfl, -⟩ : '.' = b ∧ _ := by simpa using h
        exact absurd (blanks_cons.mp hw).1 (by decide)

theorem key_complete (h : IsKey k n key) (hw : Blanks w) (hempty : k = [] → w = [])
    (hp : p.skipSpace = ⟨n, k ++ (w ++ ':' :: z)⟩) :
    p.key.outcome = (.ok key, ⟨n + k.length, w ++ ':' :: z⟩) := by
  obtain ⟨c, t, ht, -⟩ := h.startsWith (z := z) hempty
  have hp' := hp
  rw [ht] at hp'
  rw [key_outcome hp', ← ht]
  cases h with
  | quoted h =>
    have hc : c = '"' ∨ c = '\'' := by
      cases h with
      | intro hq _ =>
        obtain ⟨rfl, -⟩ := List.cons.inj ht
        exact hq
    rw [if_pos hc]
    exact string_complete h hp
  | bare hk hquote hsingle hrest =>
    have hhead (d : Char) (hd : d ∉ k.head?) (hcolon : d ≠ ':') : c ≠ d := by
      rintro rfl
      cases k with
      | nil =>
        rw [hempty rfl] at ht
        exact hcolon (List.cons.inj ht).1.symm
      | cons e k => exact hd (by simpa using (List.cons.inj ht).1)
    have hfree : ∀ e ∈ k, Stop.key.holds e = false := by
      intro e he
      obtain ⟨hblank, hcolon, hbrace⟩ := hk e he
      simp [Stop.holds, hblank, hcolon, hbrace]
    have hstop : ∀ e ∈ (w ++ ':' :: z).head?, Stop.key.holds e = true := by
      intro e he
      cases w with
      | nil =>
        obtain rfl : ':' = e := by simpa using he
        rfl
      | cons b w => simp_all [Stop.holds]
    obtain ⟨htoken, hafter⟩ := Stop.token_append_stop hfree hstop
    have hc : ¬(c = '"' ∨ c = '\'') :=
      not_or.mpr ⟨hhead _ hquote (by decide), hhead _ hsingle (by decide)⟩
    rw [if_neg hc, if_neg (not_restMarker_prefix_append hrest hw)]
    simp [skipToken, htoken, hafter]

theorem colon_complete (hw : Blanks w) :
    (Place.colon ⟨n, w ++ ':' :: r⟩).outcome = (.ok (), ⟨n + w.length + 1, r⟩) := by
  rw [colon_outcome (skipSpace_append hw (startsSolid_cons.mpr (by decide)))]
  rfl

theorem content_complete {v : List Char}
    (h : IsContent (fun t n x => IsValue t n x ∧ IsRead t n x) v (n + u.length) x) (hu : Blanks u)
    (hr : Stop.fieldValue.EndsBefore r) :
    ∃ q, (Place.value .fieldValue ⟨n, u ++ (v ++ r)⟩).outcome = (.ok x, q) ∧
      q.skipSpace = Place.skipSpace ⟨n + u.length + v.length, r⟩ ∧ x.isBare '}' = false := by
  cases h with
  | value h =>
    obtain ⟨hx, hread⟩ := h
    obtain ⟨q, hq, hskip⟩ := hread Stop.separates_fieldValue hr
      (skipSpace_append (n := n) hu (hx.startsSolid r))
    exact ⟨q, hq, hskip, hx.isBare_eq_false _⟩
  | comma =>
    have hp : Place.skipSpace ⟨n, u ++ ([','] ++ r)⟩ = ⟨n + u.length, ',' :: r⟩ :=
      skipSpace_append hu (startsSolid_cons.mpr (by decide))
    refine ⟨⟨n + u.length + 1, r⟩, ?_, rfl, ?_⟩
    · rw [value_outcome hp]
      rfl
    · simp [Node.isBare]

/-- A field is read with the blanks around it, if a brace or a comma stands behind them. -/
theorem field_complete (hw : Blanks w)
    (h : IsField (fun t n x => IsValue t n x ∧ IsRead t n x) t (n + w.length) (key, x))
    (hu : Blanks u) (hc : c = '}' ∨ c = ',') :
    ∃ v, FieldStep ⟨n, w ++ t ++ u ++ c :: r⟩ key x v ∧
      v.skipSpace = Place.skipSpace ⟨n + w.length + t.length, u ++ c :: r⟩ := by
  cases h with
  | @intro k w₁ u₁ v _ _ _ hkey hw₁ hempty hu₁ hx =>
    have htext : w ++ (k ++ w₁ ++ ':' :: u₁ ++ v) ++ u ++ c :: r =
        w ++ (k ++ (w₁ ++ ':' :: (u₁ ++ (v ++ (u ++ c :: r))))) := by simp
    obtain ⟨d, s, hd, hblank, hbrace⟩ :=
      hkey.startsWith (z := u₁ ++ (v ++ (u ++ c :: r))) hempty
    have hsolid : StartsSolid (k ++ (w₁ ++ ':' :: (u₁ ++ (v ++ (u ++ c :: r))))) := by
      rw [hd]
      exact startsSolid_cons.mpr hblank
    have hp := skipSpace_append (n := n) hw hsolid
    have hk := key_complete hkey hw₁ hempty ((skipSpace_skipSpace _).trans hp)
    have hcolon := colon_complete (n := n + w.length + k.length)
      (r := u₁ ++ (v ++ (u ++ c :: r))) hw₁
    have hposition : n + w.length + (k ++ w₁ ++ ':' :: u₁).length =
        n + w.length + k.length + w₁.length + 1 + u₁.length := by
      simp only [List.length_append, List.length_cons]
      omega
    rw [hposition] at hx
    have hend : Stop.fieldValue.EndsBefore (u ++ c :: r) := by
      rcases hc with rfl | rfl <;> exact Stop.endsBefore_append hu (by decide) (by decide)
    obtain ⟨q, hq, hskip, hbare⟩ := content_complete hx hu₁ hend
    rw [htext]
    refine ⟨q, .intro (hp.trans (by rw [hd])) hbrace hk ?_ hcolon hq hbare, hskip.trans ?_⟩
    · cases hkey <;> rfl
    · rw [← hposition, Nat.add_assoc (n + w.length), ← List.length_append]

/-- The fields of an object are read up to and with the closing brace. -/
theorem fields_complete {ps : List (Node Span × Node Span)} {isOpen : Bool}
    (h : Body '}' (IsField fun t n x => IsValue t n x ∧ IsRead t n x) t n ps isOpen)
    (r : List Char) :
    (fields ⟨n, t ++ r⟩).outcome = (.ok (ps, isOpen), ⟨n + t.length, r⟩) := by
  refine Body.induction (motive := fun t n ps isOpen =>
    ∀ r z, z = t ++ r → (fields ⟨n, z⟩).outcome = (.ok (ps, isOpen), ⟨n + t.length, r⟩))
    ?empty ?rest ?last ?cons h r _ rfl
  case empty =>
    intro w n hw r z hz
    obtain rfl : z = w ++ '}' :: r := by simpa using hz
    have hp : Place.skipSpace ⟨n, w ++ '}' :: r⟩ = ⟨n + w.length, '}' :: r⟩ :=
      skipSpace_append hw (startsSolid_cons.mpr (by decide))
    simpa [Nat.add_assoc] using fields_eq_ok_iff.mpr (.close hp)
  case rest =>
    intro w u n hw hu r z hz
    obtain rfl : z = w ++ (restMarker ++ (u ++ '}' :: r)) := by simpa using hz
    have hp : Place.skipSpace ⟨n, w ++ (restMarker ++ (u ++ '}' :: r))⟩ =
        ⟨n + w.length, '.' :: ('.' :: '.' :: (u ++ '}' :: r))⟩ :=
      skipSpace_append hw (startsSolid_cons.mpr (by decide))
    have hk : (Place.skipSpace ⟨n, w ++ (restMarker ++ (u ++ '}' :: r))⟩).key.outcome =
        (.ok (.rest ⟨n + w.length, n + w.length + 3⟩), ⟨n + w.length + 3, u ++ '}' :: r⟩) := by
      have hmarker : restMarker <+: '.' :: '.' :: '.' :: (u ++ '}' :: r) := ⟨_, rfl⟩
      rw [key_outcome ((skipSpace_skipSpace _).trans hp)]
      simp [hmarker]
    have h := fields_eq_ok_iff.mpr
      (.rest hp (by decide) hk rfl (delimiter_closing rfl hu (by decide)))
    simpa [Nat.add_assoc, Nat.add_left_comm 3, restMarker] using h
  case last =>
    rintro w t u n ⟨key, x⟩ hw hf hu r z hz
    obtain rfl : z = w ++ t ++ u ++ '}' :: r := by simpa using hz
    obtain ⟨v, hv, hskip⟩ := field_complete (r := r) hw hf hu (.inl rfl)
    have h := fields_eq_ok_iff.mpr (.last hv (delimiter_closing hskip hu (by decide)))
    simpa [Nat.add_assoc] using h
  case cons =>
    rintro w t u v n ⟨key, x⟩ ps isOpen hw hf hu ih r z hz
    obtain rfl : z = w ++ t ++ u ++ ',' :: (v ++ r) := by simpa using hz
    obtain ⟨q, hq, hskip⟩ := field_complete (r := v ++ r) hw hf hu (.inr rfl)
    have hi := ih r _ rfl
    rw [List.length_append, List.length_append, ← Nat.add_assoc, ← Nat.add_assoc] at hi
    have h := fields_eq_ok_iff.mpr (.next hq (delimiter_comma hskip hu (by decide)) hi)
    simpa [Nat.add_assoc, Nat.add_comm 1] using h

end Fields

/-- The derivation of a value is found by reading. -/
theorem IsValue.isRead (h : IsValue t n x) : IsRead t n x := by
  refine IsValue.induction (motive := IsRead) isRead_string isRead_literal isRead_rest ?array
    ?object h
  case array =>
    intro t n elements isOpen hbody hrest s p r hs _ hp
    have hopen : s.holds '[' = false := hs.holds_opening (by decide)
    have hitems := items_complete hbody hrest r
    refine ⟨⟨n + ('[' :: t).length, r⟩, ?_, rfl⟩
    rw [value_outcome hp]
    simp [hopen, hitems, Except.map, Nat.add_assoc, Nat.add_comm 1]
  case object =>
    intro t n pairs isOpen hbody s p r hs _ hp
    have hopen : s.holds '{' = false := hs.holds_opening (by decide)
    have hfields := fields_complete hbody r
    refine ⟨⟨n + ('{' :: t).length, r⟩, ?_, rfl⟩
    rw [value_outcome hp]
    simp [hopen, hfields, Except.map, Nat.add_assoc, Nat.add_comm 1]

end Grammar

end ValuePattern
