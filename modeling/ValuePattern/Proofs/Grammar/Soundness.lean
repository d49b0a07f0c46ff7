import ValuePattern.Proofs.Grammar.Literal
import ValuePattern.Proofs.Reading.Passage
import ValuePattern.Proofs.Reading.Step
/-!
What a reading takes is derived by the grammar. A reading of a value skips blanks, takes a text that
derives its tree, and may take blanks behind it, which happens to a literal in a field; the only other
thing that it can take is the one character on which the token had to stop.
-/
namespace ValuePattern.Grammar

open Text Place

/-- What a reading of a value can take once blanks are skipped: a value and blanks behind it, or one
character that ends a token. -/
inductive IsTaken (s : Stop) : List Char → Nat → Node Span → Prop
  | value {t w n x} : IsValue t n x → Blanks w → IsTaken s (t ++ w) n x
  | stop {c n} : s.holds c = true → IsTaken s [c] n (.string ⟨n, n + 1⟩ (String.singleton c))

section Tokens

variable {p q : Place} {n : Nat} {c : Char} {t : List Char} {x : Node Span} {s : Stop}

theorem string_sound (h : p.skipSpace = ⟨n, c :: t⟩) (hc : c = '"' ∨ c = '\'')
    (ho : p.string.outcome = (.ok x, q)) :
    ∃ u text, Passes ⟨n, c :: t⟩ u q ∧ IsQuoted u text ∧ x = .string ⟨n, n + u.length⟩ text := by
  by_cases hclosed : c ∈ t
  · obtain ⟨inside, behind, rfl, hi⟩ := List.eq_append_cons_of_mem hclosed
    rw [string_outcome h hc hi] at ho
    obtain ⟨rfl, rfl⟩ := Reading.ok_inj ho
    refine ⟨c :: (inside ++ [c]), _, ⟨by simp, ?_⟩, .intro hc hi, ?_⟩
    · simp [Nat.add_assoc]
    · simp [Nat.add_assoc]
  · rw [string_outcome_open h hc hclosed] at ho
    simp at ho

theorem literal_sound (h : p.skipSpace = ⟨n, c :: t⟩) (ho : (p.literal s).outcome = (.ok x, q)) :
    ∃ u w, Passes ⟨n, c :: t⟩ (u ++ w) q ∧ Blanks w ∧ IsLiteral u ⟨n, n + u.length⟩ x := by
  rw [literal_outcome h] at ho
  dsimp only at ho
  split at ho
  · simp at ho
  split at ho
  · rename_i y hy
    obtain ⟨rfl, rfl⟩ := Reading.ok_inj ho
    obtain ⟨w, hw, htoken⟩ := trimEnd_append_blanks (s.token (c :: t))
    refine ⟨_, w, ?_, hw, ofToken?_eq_some_iff.mp hy⟩
    rw [htoken]
    exact passes_skipToken s _
  · simp at ho

theorem key_sound (h : p.skipSpace = ⟨n, c :: t⟩) (ho : p.key.outcome = (.ok x, q)) :
    ∃ u, Passes ⟨n, c :: t⟩ u q ∧ (IsKey u n x ∨ u = restMarker ∧ x = .rest ⟨n, n + 3⟩) := by
  rw [key_outcome h] at ho
  split at ho
  · rename_i hc
    obtain ⟨u, text, hu, hquoted, rfl⟩ := string_sound h hc ho
    exact ⟨u, hu, .inl (.quoted hquoted)⟩
  split at ho
  · rename_i hc hrest
    obtain ⟨rfl, rfl⟩ := Reading.ok_inj ho
    obtain ⟨v, hv⟩ := hrest
    refine ⟨restMarker, ?_, .inr ⟨rfl, rfl⟩⟩
    rw [← hv]
    exact passes_mk n restMarker v
  · rename_i hc hrest
    dsimp only at ho
    split at ho
    · simp at ho
    obtain ⟨rfl, rfl⟩ := Reading.ok_inj ho
    have head {d : Char} (hd : d ∈ (Stop.key.token (c :: t)).head?) : d = c := by
      rw [Stop.token, List.head?_takeWhile, Option.mem_def] at hd
      simpa using (Option.filter_eq_some_iff.mp hd).1.symm
    refine ⟨_, passes_skipToken .key ⟨n, c :: t⟩, .inl (.bare ?_ ?_ ?_ ?_)⟩
    · intro d hd
      simpa [Stop.holds, and_assoc] using List.mem_takeWhile_imp hd
    · exact fun hd => hc (.inl (head hd).symm)
    · exact fun hd => hc (.inr (head hd).symm)
    · exact fun hr => hrest (hr.trans (List.takeWhile_prefix _))

theorem delimiter_sound {closing : Char} {otherwise : Cause} {rest? : Option Span} {closed : Bool}
    (ho : (p.delimiter closing otherwise rest?).outcome = (.ok closed, q)) :
    (rest?.isSome → closed = true) ∧
      ∃ w, Blanks w ∧ p.Passes (w ++ [if closed then closing else ',']) q := by
  obtain ⟨w, hw, hblank⟩ := p.exists_passes_skipSpace
  obtain hnil | ⟨n, c, t, h⟩ := p.skipSpace_cases
  · rw [delimiter_outcome_nil hnil] at ho
    simp at ho
  · rw [delimiter_outcome h] at ho
    rw [h] at hblank
    split at ho
    · rename_i hc
      obtain ⟨rfl, rfl⟩ := Reading.ok_inj ho
      refine ⟨fun _ => rfl, w, hw, ?_⟩
      simpa [hc] using hblank.next
    split at ho
    · rename_i hc
      cases rest? with
      | some s => simp at ho
      | none =>
        obtain ⟨rfl, rfl⟩ := Reading.ok_inj ho
        refine ⟨by simp, w, hw, ?_⟩
        simpa [hc] using hblank.next
    · simp at ho

/-- A comma behind what was read leads on to a place with less ahead. -/
theorem comma_sound {closing : Char} {otherwise : Cause} {r : Place} (hp : p.Passes t q)
    (ho : (q.delimiter closing otherwise none).outcome = (.ok false, r)) :
    ∃ u, Blanks u ∧ p.Passes (t ++ (u ++ [','])) r ∧ r.pos = p.pos + (t ++ u).length + 1 ∧
      r.ahead.length < p.ahead.length := by
  obtain ⟨-, u, hu, hpass⟩ := delimiter_sound ho
  have hall := hp.trans hpass
  refine ⟨u, hu, hall, ?_, ?_⟩
  · rw [hall.pos]
    simp only [List.length_append, List.length_singleton]
    omega
  · rw [hall.length_ahead]
    simp only [List.length_append, List.length_singleton]
    omega

theorem colon_sound (ho : p.colon.outcome = (.ok (), q)) :
    ∃ w, Blanks w ∧ p.Passes (w ++ [':']) q := by
  obtain ⟨w, hw, hblank⟩ := p.exists_passes_skipSpace
  obtain hnil | ⟨n, c, t, h⟩ := p.skipSpace_cases
  · rw [colon_outcome_nil hnil] at ho
    simp at ho
  · rw [colon_outcome h] at ho
    rw [h] at hblank
    split at ho
    · rename_i hc
      obtain ⟨-, rfl⟩ := Prod.mk.inj ho
      refine ⟨w, hw, ?_⟩
      simpa [hc] using hblank.next
    · simp at ho

theorem IsTaken.mark_start (h : IsTaken s t n x) : x.mark.start = n := by
  cases h with
  | value hx _ => rw [hx.mark_eq]
  | stop _ => rfl

/-- Where no blank stands, a reading up to a blank takes a value. -/
theorem IsTaken.of_blank (h : IsTaken .blank t n x) (ht : StartsSolid t) :
    ∃ u w, t = u ++ w ∧ Blanks w ∧ IsValue u n x := by
  cases h with
  | value h hw => exact ⟨_, _, rfl, hw, h⟩
  | stop hc => simp_all [Stop.holds]

/-- A reading of an element takes a value, or else a bracket or a comma. -/
theorem IsTaken.of_element (h : IsTaken .element t n x) (ht : StartsSolid t)
    (hclosing : x.isBare ']' = false) (hcomma : x.isBare ',' = false) :
    ∃ u w, t = u ++ w ∧ Blanks w ∧ IsValue u n x := by
  cases h with
  | value h hw => exact ⟨_, _, rfl, hw, h⟩
  | @stop c n hc =>
    have hb := startsSolid_cons.mp ht
    rw [← Bool.not_eq_true, Node.isBare_singleton] at hclosing hcomma
    simp [Stop.holds, hb, hclosing, hcomma] at hc

/-- A reading of a field value takes content, or else a brace. -/
theorem IsTaken.of_fieldValue (h : IsTaken .fieldValue t n x) (hclosing : x.isBare '}' = false) :
    ∃ u w, t = u ++ w ∧ Blanks w ∧ IsContent IsValue u n x := by
  cases h with
  | value h hw => exact ⟨_, _, rfl, hw, .value h⟩
  | @stop c n hc =>
    rw [← Bool.not_eq_true, Node.isBare_singleton] at hclosing
    obtain rfl : c = ',' := by simpa [Stop.holds, hclosing] using hc
    exact ⟨_, [], rfl, blanks_nil, .comma⟩

/-- A bare character is taken where a token has to stop on it. -/
theorem IsTaken.eq_of_isBare (h : IsTaken s t n x) (hx : x.isBare c = true) : t = [c] := by
  cases h with
  | value h _ => simp [h.isBare_eq_false] at hx
  | stop hc => rw [Node.isBare_singleton.mp hx]

theorem IsTaken.mark_stop_of_isBare (h : IsTaken s t n x) (hx : x.isBare c = true) :
    x.mark.stop = n + 1 := by
  cases h with
  | value h _ => simp [h.isBare_eq_false] at hx
  | stop hc => rfl

theorem IsTaken.eq_restMarker (h : IsTaken s t n x) (hx : x.isRest = true) :
    ∃ w, t = restMarker ++ w ∧ Blanks w := by
  cases h with
  | value h hw => exact ⟨_, by rw [h.eq_restMarker hx], hw⟩
  | stop hc => simp [Node.isRest] at hx

/-- A key that is no rest marker is read behind blanks. If it is empty, no blank stands behind it,
since the blanks were taken before it. -/
theorem keyStep_sound (h : p.skipSpace = ⟨n, c :: t⟩) (hk : p.skipSpace.key.outcome = (.ok x, q))
    (hrest : x.isRest = false) :
    ∃ w k, Blanks w ∧ p.Passes (w ++ k) q ∧ IsKey k (p.pos + w.length) x ∧
      (k = [] → StartsSolid q.ahead) := by
  obtain ⟨w, hw, hblank⟩ := p.exists_passes_skipSpace
  obtain ⟨k, hkey, hiskey | ⟨-, rfl⟩⟩ := key_sound (p.skipSpace_skipSpace.trans h) hk
  · obtain rfl : p.pos + w.length = n := by rw [← hblank.pos, h]
    have hsolid := p.startsSolid_skipSpace
    rw [h, hkey.ahead] at hsolid
    rw [← h] at hkey
    refine ⟨w, k, hw, hblank.trans hkey, hiskey, ?_⟩
    rintro rfl
    exact hsolid
  · simp [Node.isRest] at hrest

/-- A key and its colon, with the blanks before them and between them. -/
theorem keyColon_sound {r : Place} (h : p.skipSpace = ⟨n, c :: t⟩)
    (hk : p.skipSpace.key.outcome = (.ok x, q)) (hrest : x.isRest = false)
    (hcolon : q.colon.outcome = (.ok (), r)) :
    ∃ w k u, Blanks w ∧ p.Passes (w ++ (k ++ u ++ [':'])) r ∧ IsKey k (p.pos + w.length) x ∧
      Blanks u ∧ (k = [] → u = []) := by
  obtain ⟨w, k, hw, hkey, hiskey, hsolid⟩ := keyStep_sound h hk hrest
  obtain ⟨u, hu, hpass⟩ := colon_sound hcolon
  refine ⟨w, k, u, hw, by simpa using hkey.trans hpass, hiskey, hu, ?_⟩
  intro hnil
  have hstart := hsolid hnil
  rw [hpass.ahead, List.append_assoc] at hstart
  exact hu.eq_nil hstart

/-- An element of an array, with the blanks before it and behind it. -/
theorem element_sound (hx : ElementStep p x q)
    (hvalue : ∃ t, p.skipSpace.Passes t q ∧ IsTaken .element t p.skipSpace.pos x) :
    ∃ w t u, Blanks w ∧ p.Passes (w ++ t ++ u) q ∧ Blanks u ∧ IsValue t (p.pos + w.length) x := by
  obtain ⟨w, hw, hblank⟩ := p.exists_passes_skipSpace
  obtain ⟨t, htake, htaken⟩ := hvalue
  have hstart := p.startsSolid_skipSpace
  rw [htake.ahead] at hstart
  obtain ⟨t, u, rfl, hu, hvalue⟩ := htaken.of_element hstart.of_append hx.isBracket hx.isComma
  rw [hblank.pos] at hvalue
  exact ⟨w, t, u, hw, by simpa using hblank.trans htake, hu, hvalue⟩

/-- What stands behind a colon, with the blanks before it and behind it. -/
theorem content_sound (hbrace : x.isBare '}' = false)
    (hvalue : ∃ t, p.skipSpace.Passes t q ∧ IsTaken .fieldValue t p.skipSpace.pos x) :
    ∃ w t u, Blanks w ∧ p.Passes (w ++ t ++ u) q ∧ Blanks u ∧
      IsContent IsValue t (p.pos + w.length) x := by
  obtain ⟨w, hw, hblank⟩ := p.exists_passes_skipSpace
  obtain ⟨t, htake, htaken⟩ := hvalue
  obtain ⟨t, u, rfl, hu, hcontent⟩ := htaken.of_fieldValue hbrace
  rw [hblank.pos] at hcontent
  exact ⟨w, t, u, hw, by simpa using hblank.trans htake, hu, hcontent⟩

/-- A field of an object, with the blanks before it and behind it. Its content is read where less is
ahead. -/
theorem field_sound {key : Node Span} (hx : FieldStep p key x q)
    (hvalue : ∀ u : Place, u.ahead.length < p.ahead.length →
      (u.value .fieldValue).outcome = (.ok x, q) →
      ∃ t, u.skipSpace.Passes t q ∧ IsTaken .fieldValue t u.skipSpace.pos x) :
    ∃ w t u, Blanks w ∧ p.Passes (w ++ t ++ u) q ∧ Blanks u ∧
      IsField IsValue t (p.pos + w.length) (key, x) := by
  cases hx with
  | @intro n c t r u _ hp hc hk hrest hcolon hcontent hbrace =>
    obtain ⟨w, k, w₁, hw, hbefore, hiskey, hw₁, hempty⟩ := keyColon_sound hp hk hrest hcolon
    have lt : u.ahead.length < p.ahead.length := by
      rw [hbefore.length_ahead]
      simp only [List.length_append, List.length_singleton]
      omega
    obtain ⟨w₂, z, y, hw₂, hpass₂, hy, hz⟩ := content_sound hbrace (hvalue u lt hcontent)
    have hposition : u.pos + w₂.length = p.pos + w.length + (k ++ w₁ ++ ':' :: w₂).length := by
      rw [hbefore.pos]
      simp only [List.length_append, List.length_cons, List.length_nil]
      omega
    rw [hposition] at hz
    refine ⟨w, _, y, hw, ?_, hy, .intro hiskey hw₁ hempty hw₂ hz⟩
    simpa using hbefore.trans hpass₂

end Tokens

mutual

theorem value_sound (p : Place) {s : Stop} {x : Node Span} {q : Place}
    (ho : (p.value s).outcome = (.ok x, q)) :
    ∃ t, p.skipSpace.Passes t q ∧ IsTaken s t p.skipSpace.pos x := by
  obtain hnil | ⟨n, c, t, h⟩ := p.skipSpace_cases
  · rw [value_outcome_nil hnil] at ho
    simp at ho
  · have lt : t.length < p.ahead.length := length_lt_of_skipSpace (by rw [h])
    rw [value_outcome h] at ho
    rw [h]
    split at ho
    · rename_i hc
      obtain ⟨rfl, rfl⟩ := Reading.ok_inj ho
      exact ⟨[c], ⟨rfl, rfl⟩, .stop hc⟩
    split at ho
    · rename_i hc
      obtain ⟨u, text, hu, hquoted, rfl⟩ := string_sound h hc ho
      exact ⟨u ++ [], by simpa using hu, .value (.string hquoted) blanks_nil⟩
    split at ho
    · rename_i hc
      obtain ⟨_, hr, rfl⟩ := Reading.map_outcome_eq_ok.mp ho
      obtain ⟨u, hu, hbody, hrest⟩ := items_sound ⟨n + 1, t⟩ hr
      have hpass : Passes ⟨n, c :: t⟩ ('[' :: u) q := by
        rw [hc]
        exact passes_cons hu
      refine ⟨'[' :: u ++ [], by simpa using hpass, .value ?_ blanks_nil⟩
      rw [hr, hpass.pos]
      exact .array hbody hrest
    split at ho
    · rename_i hc
      obtain ⟨_, hr, rfl⟩ := Reading.map_outcome_eq_ok.mp ho
      obtain ⟨u, hu, hbody⟩ := fields_sound ⟨n + 1, t⟩ hr
      have hpass : Passes ⟨n, c :: t⟩ ('{' :: u) q := by
        rw [hc]
        exact passes_cons hu
      refine ⟨'{' :: u ++ [], by simpa using hpass, .value ?_ blanks_nil⟩
      rw [hr, hpass.pos]
      exact .object hbody
    split at ho
    · rename_i hrest
      obtain ⟨rfl, rfl⟩ := Reading.ok_inj ho
      obtain ⟨v, hv⟩ := hrest
      refine ⟨restMarker ++ [], ?_, .value .rest blanks_nil⟩
      rw [← hv, List.append_nil]
      exact passes_mk n restMarker v
    · obtain ⟨u, w, hu, hw, hl⟩ := literal_sound h ho
      exact ⟨u ++ w, hu, .value (.literal hl) hw⟩
termination_by 2 * p.ahead.length

theorem items_sound (p : Place) {xs : List (Node Span)} {isOpen : Bool} {q : Place}
    (ho : (items p).outcome = (.ok (xs, isOpen), q)) :
    ∃ t, p.Passes t q ∧ Body ']' IsValue t p.pos xs isOpen ∧ ∀ x ∈ xs, x.isRest = false := by
  obtain ⟨w, hw, hblank⟩ := p.exists_passes_skipSpace
  cases items_eq_ok_iff.mp ho with
  | close hv hbracket =>
    obtain ⟨t, htake, htaken⟩ := value_sound p hv
    obtain rfl := htaken.eq_of_isBare hbracket
    exact ⟨_, hblank.trans htake, .empty hw, by simp⟩
  | rest hv hrest hd =>
    obtain ⟨t, htake, htaken⟩ := value_sound p hv
    obtain ⟨u, rfl, hu⟩ := htaken.eq_restMarker hrest
    obtain ⟨hclosed, u', hu', hpass⟩ := delimiter_sound hd
    obtain rfl := hclosed (Node.isSome_restSpan? hrest)
    refine ⟨_, (hblank.trans htake).trans hpass, ?_, by simp⟩
    simpa using Body.entries hw .rest (blanks_append.mpr ⟨hu, hu'⟩)
  | last hx hd =>
    obtain ⟨w, t, u, hw, htake, hu, hvalue⟩ := element_sound hx (value_sound p hx.value)
    obtain ⟨-, u', hu', hpass⟩ := delimiter_sound hd
    refine ⟨_, htake.trans hpass, ?_, by simpa using hx.isRest⟩
    simpa using Body.entries hw (.last hvalue) (blanks_append.mpr ⟨hu, hu'⟩)
  | @next x v r xs isOpen q hx hd hr =>
    obtain ⟨w, t, u, hw, htake, hu, hvalue⟩ := element_sound hx (value_sound p hx.value)
    obtain ⟨u', hu', hall, hposition, lt⟩ := comma_sound htake hd
    obtain ⟨z, hz, hbody, hrests⟩ := items_sound r hr
    refine ⟨_, hall.trans hz, ?_, by simpa [hx.isRest] using hrests⟩
    rw [hposition, List.append_assoc (w ++ t)] at hbody
    simpa using hbody.cons hw hvalue (blanks_append.mpr ⟨hu, hu'⟩)
termination_by 2 * p.ahead.length + 1

theorem fields_sound (p : Place) {ps : List (Node Span × Node Span)} {isOpen : Bool} {q : Place}
    (ho : (fields p).outcome = (.ok (ps, isOpen), q)) :
    ∃ t, p.Passes t q ∧ Body '}' (IsField IsValue) t p.pos ps isOpen := by
  obtain ⟨w, hw, hblank⟩ := p.exists_passes_skipSpace
  cases fields_eq_ok_iff.mp ho with
  | close hp =>
    rw [hp] at hblank
    exact ⟨_, hblank.next, .empty hw⟩
  | rest hp hc hk hrest hd =>
    obtain ⟨k, hkey, hiskey | ⟨rfl, rfl⟩⟩ := key_sound (p.skipSpace_skipSpace.trans hp) hk
    · cases hiskey <;> simp [Node.isRest] at hrest
    · obtain ⟨hclosed, u, hu, hpass⟩ := delimiter_sound hd
      obtain rfl := hclosed (Node.isSome_restSpan? hrest)
      rw [← hp] at hkey
      exact ⟨_, (hblank.trans hkey).trans hpass, by simpa using Body.entries hw .rest hu⟩
  | last hx hd =>
    obtain ⟨w, t, u, hw, htake, hu, hfield⟩ := field_sound hx fun r lt hr => value_sound r hr
    obtain ⟨-, u', hu', hpass⟩ := delimiter_sound hd
    refine ⟨_, htake.trans hpass, ?_⟩
    simpa using Body.entries hw (.last hfield) (blanks_append.mpr ⟨hu, hu'⟩)
  | @next key x v r ps isOpen q hx hd hr =>
    obtain ⟨w, t, u, hw, htake, hu, hfield⟩ := field_sound hx fun r lt hr => value_sound r hr
    obtain ⟨u', hu', hall, hposition, lt⟩ := comma_sound htake hd
    obtain ⟨z, hz, hbody⟩ := fields_sound r hr
    refine ⟨_, hall.trans hz, ?_⟩
    rw [hposition, List.append_assoc (w ++ t)] at hbody
    simpa using hbody.cons hw hfield (blanks_append.mpr ⟨hu, hu'⟩)
termination_by 2 * p.ahead.length + 1

end

end ValuePattern.Grammar
