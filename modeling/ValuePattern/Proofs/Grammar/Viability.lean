import Mathlib
import ValuePattern.Proofs.Grammar.Compile
import ValuePattern.Proofs.Reading.Failure
/-!
What stands before a fault is innocent: some continuation of it is a pattern. A reading that fails
within brackets or braces leaves a text that can be continued to their contents, and then the
contents around it can be continued likewise, out to the whole pattern.
-/
namespace ValuePattern

namespace Grammar

open Text Place

/-- A text with a continuation that is in a language. -/
def Viable (L : List Char → Prop) (u : List Char) : Prop := ∃ t, L (u ++ t)

/-- A value that may be an element of an array. -/
def IsElement (t : List Char) (n : Nat) (x : Node Span) : Prop := IsValue t n x ∧ x.isRest = false

/-- Blanks and a value behind them. -/
def SomeValue (n : Nat) (t : List Char) : Prop :=
  ∃ w u x, t = w ++ u ∧ Blanks w ∧ IsElement u (n + w.length) x

/-- The text of any body. -/
def SomeBody {α : Type} (closing : Char) (E : List Char → Nat → α → Prop) (n : Nat)
    (t : List Char) : Prop :=
  ∃ as isOpen, Body closing E t n as isOpen

/-- The text from a place up to the blamed span has a continuation in a language, which may depend
on the position. -/
def Innocent (L : Nat → List Char → Prop) (p : Place) (f : Fault) : Prop :=
  ∃ u q, p.Passes u q ∧ q.pos = f.span.start ∧ Viable (L p.pos) u

theorem Viable.of_append {L : List Char → Prop} {u t : List Char} (h : Viable L (u ++ t)) :
    Viable L u := by
  obtain ⟨v, hv⟩ := h
  exact ⟨t ++ v, by rwa [← List.append_assoc]⟩

section Bodies

variable {α : Type} {closing : Char} {E : List Char → Nat → α → Prop}
variable {w t u r : List Char} {n : Nat} {a : α}

theorem viable_body_of_blanks (hw : Blanks w) : Viable (SomeBody closing E n) w :=
  ⟨[closing], [], false, .empty hw⟩

theorem viable_body_of_rest (hw : Blanks w) (hu : Blanks u) :
    Viable (SomeBody closing E n) (w ++ restMarker ++ u) :=
  ⟨[closing], [], true, .entries hw .rest hu⟩

theorem viable_body_of_entry (hw : Blanks w) (ha : E t (n + w.length) a) (hu : Blanks u) :
    Viable (SomeBody closing E n) (w ++ t ++ u) :=
  ⟨[closing], [a], false, .entries hw (.last ha) hu⟩

theorem viable_body_cons (hw : Blanks w) (ha : E t (n + w.length) a) (hu : Blanks u)
    (hr : Viable (SomeBody closing E (n + (w ++ t ++ u).length + 1)) r) :
    Viable (SomeBody closing E n) (w ++ t ++ u ++ ',' :: r) := by
  obtain ⟨v, as, isOpen, hbody⟩ := hr
  exact ⟨v, a :: as, isOpen, by simpa using hbody.cons hw ha hu⟩

end Bodies

section Values

variable {w k v u : List Char} {n : Nat} {key : Node Span}

theorem viable_value_of_blanks (hw : Blanks w) : Viable (SomeValue n) w :=
  ⟨"null".toList, w, _, _, rfl, hw, .literal .nullWord, rfl⟩

theorem viable_value_of_items (hw : Blanks w)
    (h : Viable (SomeBody ']' IsElement (n + w.length + 1)) u) :
    Viable (SomeValue n) (w ++ '[' :: u) := by
  obtain ⟨t, elements, isOpen, hbody⟩ := h
  have hrest : ∀ x ∈ elements, x.isRest = false := by
    intro x hx
    obtain ⟨_, _, -, hx⟩ := hbody.exists_of_mem x hx
    exact hx
  have hbody := hbody.imp (F := IsValue) fun _ _ _ _ h => h.1
  exact ⟨t, w, _, _, by simp, hw, .array hbody hrest, rfl⟩

theorem viable_value_of_fields (hw : Blanks w)
    (h : Viable (SomeBody '}' (IsField IsValue) (n + w.length + 1)) u) :
    Viable (SomeValue n) (w ++ '{' :: u) := by
  obtain ⟨t, pairs, isOpen, hbody⟩ := h
  exact ⟨t, w, _, _, by simp, hw, .object hbody, rfl⟩

theorem viable_items_of_value (h : Viable (SomeValue n) u) :
    Viable (SomeBody ']' IsElement n) u := by
  obtain ⟨t, w, z, x, htext, hw, hx⟩ := h
  refine ⟨t ++ [']'], [x], false, ?_⟩
  rw [← List.append_assoc, htext]
  simpa using Body.entries hw (.last hx) blanks_nil

theorem viable_fields_of_value (hw : Blanks w) (hk : IsKey k (n + w.length) key) (hv : Blanks v)
    (hempty : k = [] → v = []) (h : Viable (SomeValue (n + (w ++ (k ++ v ++ [':'])).length)) u) :
    Viable (SomeBody '}' (IsField IsValue) n) (w ++ (k ++ v ++ [':']) ++ u) := by
  obtain ⟨t, w', z, x, htext, hw', hx, -⟩ := h
  have hposition : n + (w ++ (k ++ v ++ [':'])).length + w'.length =
      n + w.length + (k ++ v ++ ':' :: w').length := by
    simp only [List.length_append, List.length_cons, List.length_nil]
    omega
  rw [hposition] at hx
  have hfield : IsField IsValue (k ++ v ++ ':' :: w' ++ z) (n + w.length) (key, x) :=
    .intro hk hv hempty hw' (.value hx)
  refine ⟨t ++ ['}'], [(key, x)], false, ?_⟩
  rw [List.append_assoc, ← List.append_assoc u, htext]
  simpa using Body.entries hw (.last hfield) blanks_nil

end Values

section Faults

variable {α : Type} {L L' : Nat → List Char → Prop} {p q v : Place} {f : Fault} {t w : List Char}

theorem Innocent.behind (hpass : p.Passes w q) (h : Innocent L q f)
    (hL : ∀ u, Viable (L q.pos) u → Viable (L' p.pos) (w ++ u)) : Innocent L' p f := by
  obtain ⟨u, r, hr, hstart, hu⟩ := h
  exact ⟨w ++ u, r, hpass.trans hr, hstart, hL u hu⟩

theorem Innocent.imp (h : Innocent L p f)
    (hL : ∀ u, Viable (L p.pos) u → Viable (L' p.pos) u) : Innocent L' p f := by
  obtain ⟨u, r, hr, hstart, hu⟩ := h
  exact ⟨u, r, hr, hstart, hL u hu⟩

/-- A fault that begins where the reading does, or behind the blanks there, leaves only blanks. -/
theorem innocent_of_blanks (hstart : f.span.start = p.pos ∨ f.span.start = p.skipSpace.pos)
    (h : ∀ w, Blanks w → Viable (L p.pos) w) : Innocent L p f := by
  obtain hstart | hstart := hstart
  · exact ⟨[], p, ⟨rfl, rfl⟩, hstart.symm, h [] blanks_nil⟩
  · obtain ⟨w, hw, hblank⟩ := p.exists_passes_skipSpace
    exact ⟨w, p.skipSpace, hblank, hstart.symm, h w hw⟩

/-- A delimiter that is missing is missed behind blanks, and a rest marker that is not the last entry
is blamed itself. -/
theorem innocent_of_delimiter {closing : Char} {E : List Char → Nat → α → Prop}
    {otherwise : Cause} {rest? : Option Span} (hpass : p.Passes t v)
    (hbehind : ∀ u, Blanks u → Viable (SomeBody closing E p.pos) (t ++ u))
    (hrest : ∀ s, rest? = some s → s.start = p.skipSpace.pos)
    (hd : (v.delimiter closing otherwise rest?).outcome = (.error f, q)) :
    Innocent (SomeBody closing E) p f := by
  obtain ⟨rfl, -⟩ | ⟨s, _, _, hs, -, rfl⟩ := delimiter_failure hd
  · obtain ⟨u, hu, hblank⟩ := v.exists_passes_skipSpace
    exact ⟨t ++ u, v.skipSpace, hpass.trans hblank, rfl, hbehind u hu⟩
  · exact innocent_of_blanks (.inr (hrest s hs)) fun w hw => viable_body_of_blanks hw

/-- An entry with a delimiter missing behind it can be closed. -/
theorem innocent_of_entry {closing : Char} {E : List Char → Nat → α → Prop} {otherwise : Cause}
    {a : α} {u : List Char} (hpass : p.Passes (w ++ t ++ u) v) (hw : Blanks w)
    (ha : E t (p.pos + w.length) a) (hu : Blanks u)
    (hd : (v.delimiter closing otherwise none).outcome = (.error f, q)) :
    Innocent (SomeBody closing E) p f := by
  refine innocent_of_delimiter hpass (fun u' hu' => ?_) (by simp) hd
  simpa using viable_body_of_entry hw ha (blanks_append.mpr ⟨hu, hu'⟩)

/-- An entry and a comma can stand before any body. -/
theorem Innocent.behind_entry {closing : Char} {E : List Char → Nat → α → Prop} {a : α}
    {u : List Char} (hpass : p.Passes (w ++ t ++ u ++ [',']) q) (hw : Blanks w)
    (ha : E t (p.pos + w.length) a) (hu : Blanks u) (h : Innocent (SomeBody closing E) q f) :
    Innocent (SomeBody closing E) p f := by
  refine h.behind hpass fun z hz => ?_
  have hposition : q.pos = p.pos + (w ++ t ++ u).length + 1 := by
    rw [hpass.pos, List.length_append, List.length_singleton, Nat.add_assoc]
  rw [hposition] at hz
  simpa using viable_body_cons hw ha hu hz

end Faults

mutual

/-- What stands before a fault in a value can be continued to a value. -/
theorem value_innocent (p : Place) {s : Stop} {f : Fault} {q : Place}
    (h : (p.value s).outcome = (.error f, q)) : Innocent SomeValue p f := by
  obtain ⟨w, hw, hblank⟩ := p.exists_passes_skipSpace
  have blanks (u : List Char) (hu : Blanks u) : Viable (SomeValue p.pos) u :=
    viable_value_of_blanks hu
  cases value_failure h with
  | empty _ => exact innocent_of_blanks (.inl rfl) blanks
  | string hp _ _ => exact innocent_of_blanks (.inr (by rw [hp])) blanks
  | literal hp _ _ => exact innocent_of_blanks (.inr (by rw [hp])) blanks
  | @array n t _ r hp hr =>
    have lt : t.length < p.ahead.length := length_lt_of_skipSpace (by rw [hp])
    rw [hp] at hblank
    obtain rfl : n = p.pos + w.length := hblank.pos
    refine (items_innocent _ hr).behind hblank.next fun u hu => ?_
    simpa using viable_value_of_items hw hu
  | @object n t _ r hp hr =>
    have lt : t.length < p.ahead.length := length_lt_of_skipSpace (by rw [hp])
    rw [hp] at hblank
    obtain rfl : n = p.pos + w.length := hblank.pos
    refine (fields_innocent _ hr).behind hblank.next fun u hu => ?_
    simpa using viable_value_of_fields hw hu
termination_by 2 * p.ahead.length

/-- What stands before a fault in the elements of an array can be continued to elements. -/
theorem items_innocent (p : Place) {f : Fault} {q : Place}
    (h : (items p).outcome = (.error f, q)) : Innocent (SomeBody ']' IsElement) p f := by
  cases items_failure h with
  | element hv => exact (value_innocent p hv).imp fun _ => viable_items_of_value
  | comma _ _ => exact innocent_of_blanks (.inl rfl) fun _ => viable_body_of_blanks
  | @rest x v _ _ hv hrest hd =>
    obtain ⟨w, hw, hblank⟩ := p.exists_passes_skipSpace
    obtain ⟨t, htake, htaken⟩ := value_sound p hv
    obtain ⟨u, rfl, hu⟩ := htaken.eq_restMarker hrest
    refine innocent_of_delimiter (hblank.trans htake) (fun u' hu' => ?_) (fun m hm => ?_) hd
    · simpa using viable_body_of_rest hw (blanks_append.mpr ⟨hu, hu'⟩)
    · rw [← Node.mark_eq_of_restSpan? hm, htaken.mark_start]
  | delimiter hx hd =>
    obtain ⟨w, t, u, hw, htake, hu, hvalue⟩ := element_sound hx (value_sound p hx.value)
    exact innocent_of_entry htake hw ⟨hvalue, hx.isRest⟩ hu hd
  | @later x v r _ _ hx hd hr =>
    obtain ⟨w, t, u, hw, htake, hu, hvalue⟩ := element_sound hx (value_sound p hx.value)
    obtain ⟨u', hu', hall, -, lt⟩ := comma_sound htake hd
    have hpass : p.Passes (w ++ t ++ (u ++ u') ++ [',']) r := by simpa using hall
    have hblanks : Blanks (u ++ u') := blanks_append.mpr ⟨hu, hu'⟩
    exact (items_innocent r hr).behind_entry hpass hw ⟨hvalue, hx.isRest⟩ hblanks
termination_by 2 * p.ahead.length + 1

/-- What stands before a fault in the fields of an object can be continued to fields. -/
theorem fields_innocent (p : Place) {f : Fault} {q : Place}
    (h : (fields p).outcome = (.error f, q)) : Innocent (SomeBody '}' (IsField IsValue)) p f := by
  have blanks (u : List Char) (hu : Blanks u) : Viable (SomeBody '}' (IsField IsValue) p.pos) u :=
    viable_body_of_blanks hu
  cases fields_failure h with
  | empty _ => exact innocent_of_blanks (.inl rfl) blanks
  | key hp hk =>
    obtain ⟨-, -, rfl⟩ | ⟨-, rfl⟩ := key_failure (p.skipSpace_skipSpace.trans hp) hk
    · exact innocent_of_blanks (.inr (by rw [hp])) blanks
    · exact innocent_of_blanks (.inr (by rw [hp])) blanks
  | @rest key r _ _ hkey hrest hd =>
    obtain ⟨hp, _, hk⟩ := hkey
    obtain ⟨w, hw, hblank⟩ := p.exists_passes_skipSpace
    obtain ⟨k, htake, hiskey | ⟨rfl, rfl⟩⟩ := key_sound (p.skipSpace_skipSpace.trans hp) hk
    · cases hiskey <;> simp [Node.isRest] at hrest
    rw [← hp] at htake
    refine innocent_of_delimiter (hblank.trans htake) (fun u hu => ?_) (fun m hm => ?_) hd
    · exact viable_body_of_rest hw hu
    · rw [← Node.mark_eq_of_restSpan? hm, hp]
      rfl
  | @colon key r _ _ hkey hrest hcolon =>
    obtain ⟨hp, _, hk⟩ := hkey
    obtain ⟨w, k, hw, htake, hiskey, hsolid⟩ := keyStep_sound hp hk hrest
    obtain ⟨rfl, -⟩ := colon_failure hcolon
    obtain ⟨w', hw', hblank⟩ := r.exists_passes_skipSpace
    have hempty : k = [] → w' = [] := by
      intro hnil
      have hstart := hsolid hnil
      rw [hblank.ahead] at hstart
      exact hw'.eq_nil hstart
    -- a colon and a value continue the key
    have hvalue := viable_fields_of_value hw hiskey hw' hempty (viable_value_of_blanks blanks_nil)
    have hkey : Viable (SomeBody '}' (IsField IsValue) p.pos) (w ++ k ++ w' ++ [':']) := by
      simpa using hvalue
    exact ⟨_, r.skipSpace, htake.trans hblank, rfl, hkey.of_append⟩
  | @content key r u _ _ hkey hrest hcolon hcontent =>
    obtain ⟨hp, _, hk⟩ := hkey
    obtain ⟨w, k, w', hw, htake, hiskey, hw', hempty⟩ := keyColon_sound hp hk hrest hcolon
    have lt : u.ahead.length < p.ahead.length := by
      rw [htake.length_ahead]
      simp only [List.length_append, List.length_singleton]
      omega
    refine (value_innocent u hcontent).behind htake fun z hz => ?_
    rw [htake.pos] at hz
    exact viable_fields_of_value hw hiskey hw' hempty hz
  | @brace key r u _ _ hkey hrest hcolon _ _ =>
    obtain ⟨hp, _, hk⟩ := hkey
    obtain ⟨w, k, w', hw, htake, hiskey, hw', hempty⟩ := keyColon_sound hp hk hrest hcolon
    refine ⟨_, u, htake, rfl, ?_⟩
    simpa using viable_fields_of_value hw hiskey hw' hempty (viable_value_of_blanks blanks_nil)
  | delimiter hx hd =>
    obtain ⟨w, t, u, hw, htake, hu, hfield⟩ := field_sound hx fun r _ hr => value_sound r hr
    exact innocent_of_entry htake hw hfield hu hd
  | @later key x v r _ _ hx hd hr =>
    obtain ⟨w, t, u, hw, htake, hu, hfield⟩ := field_sound hx fun r _ hr => value_sound r hr
    obtain ⟨u', hu', hall, -, lt⟩ := comma_sound htake hd
    have hpass : p.Passes (w ++ t ++ (u ++ u') ++ [',']) r := by simpa using hall
    have hblanks : Blanks (u ++ u') := blanks_append.mpr ⟨hu, hu'⟩
    exact (fields_innocent r hr).behind_entry hpass hw hfield hblanks
termination_by 2 * p.ahead.length + 1

end

end Grammar

namespace Pattern

open Text Place Grammar

variable {text : List Char} {f : Fault}

/-- The text of any pattern, which begins at the first position. -/
def SomePattern (_ : Nat) (text : List Char) : Prop := ∃ root, IsPattern text root

/-- What stands before the fault of a text that is not read can be continued to a pattern. -/
theorem innocent_of_readRoot {help : Option String} (h : readRoot text = .error (f, help)) :
    Innocent SomePattern (first text) f := by
  obtain ⟨q, hvalue, -⟩ | ⟨x, q, hvalue, -, rfl, -⟩ := readRoot_eq_error h
  · obtain ⟨w, hw, hblank⟩ := (first text).exists_passes_skipSpace
    refine (value_innocent _ hvalue).behind hblank fun u hu => ?_
    obtain ⟨t, w', z, x, htext, hw', hx, -⟩ := hu
    have hposition : (first text).skipSpace.pos + w'.length = (w ++ w').length := by
      rw [hblank.pos, List.length_append, first, Nat.zero_add]
    rw [hposition] at hx
    refine ⟨t, some x, ?_⟩
    rw [List.append_assoc, htext]
    simpa using IsPattern.value (blanks_append.mpr ⟨hw, hw'⟩) hx blanks_nil
  · obtain ⟨t, hpass, hpattern⟩ := isPattern_of_value hvalue
    exact ⟨t, q.skipSpace, hpass, rfl, [], some x, by simpa using hpattern⟩

/-- Whatever the fault and however deep it lies, what stands before the blamed span can be continued
to a source that compiles. -/
theorem viable_before_error (source : String) (e : SyntaxError) (h : compile source = .error e) :
    e.fault.span.start ≤ source.length ∧
      ∃ (t : String) (p : Pattern),
        compile (String.ofList (Span.slice ⟨0, e.fault.span.start⟩ source.toList) ++ t) = .ok p := by
  obtain ⟨help, hroot⟩ := compile_eq_error h
  obtain ⟨u, q, hpass, hstart, t, root, hpattern⟩ := innocent_of_readRoot hroot
  have htext : source.toList = u ++ q.ahead := hpass.ahead
  have hlength : e.fault.span.start = u.length := by
    rw [← hstart, hpass.pos]
    exact Nat.zero_add _
  have hslice : Span.slice ⟨0, e.fault.span.start⟩ source.toList = u := by
    simp [Span.slice, htext, hlength]
  constructor
  · rw [← String.length_toList, htext, List.length_append, hlength]
    exact Nat.le_add_right _ _
  · refine ⟨String.ofList t, ⟨_, root⟩, compile_eq_ok_iff_readRoot.mpr ⟨rfl, ?_⟩⟩
    rw [hslice, String.toList_append, String.toList_ofList, String.toList_ofList]
    exact readRoot_of_isPattern hpattern

/-- A rest marker that something follows is blamed itself, and the array before it is innocent. -/
theorem viable_before_error_rest :
    ∃ e, compile "\x7ba: [null, ..., null]\x7d" = .error e ∧ e.fault.span.start = 11 ∧
      11 ≤ "\x7ba: [null, ..., null]\x7d".length ∧
      ∃ (t : String) (p : Pattern), compile ("\x7ba: [null, " ++ t) = .ok p := by
  let e : SyntaxError := ⟨"\x7ba: [null, ..., null]\x7d", ⟨0, 22⟩, ⟨.restNotLast, 11, 15⟩, none⟩
  have herror : compile "\x7ba: [null, ..., null]\x7d" = .error e := by cbv
  have hbefore : String.ofList (Span.slice ⟨0, 11⟩ "\x7ba: [null, ..., null]\x7d".toList) =
      "\x7ba: [null, " := by cbv
  obtain ⟨hbound, hviable⟩ := viable_before_error _ e herror
  rw [← hbefore]
  exact ⟨e, herror, rfl, hbound, hviable⟩

end Pattern

end ValuePattern
