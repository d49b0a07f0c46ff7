import Mathlib
import ValuePattern.Proofs.Grammar.Compile
import ValuePattern.Proofs.Reading.Failure
/-!
What a syntax error says is true. A fault blames a part of the source, which is empty only at the end
of it, and the cause of the fault says something of that part: that it is blank, that a quote opens in
it and does not close, that it is no literal. Whatever stands before a place, a reading from there
blames what lies ahead; so a fault that is told of the inside of an array or object is told of the
whole source.
-/
namespace ValuePattern

open Text

/-- The next character, or the end of the text. -/
def IsSpot (P : Char → Prop) (blamed behind : List Char) : Prop :=
  (∃ c, blamed = [c] ∧ P c) ∨ blamed = [] ∧ behind = []

/-- What a cause says of the text that is blamed and of what stands behind that. -/
def Cause.Says (blamed behind : List Char) : Cause → Prop
  | emptyField expected => (expected = .key ∨ expected = .value) ∧ Blanks blamed ∧ behind = []
  | unexpectedOpening .. => False
  | unterminatedString quote =>
    (quote = '"' ∨ quote = '\'') ∧ (∃ inside, blamed = quote :: inside ∧ quote ∉ inside) ∧ behind = []
  | unterminatedKey =>
    blamed ≠ [] ∧ (∀ c ∈ blamed, isBlank c = false ∧ c ≠ ':' ∧ c ≠ '}') ∧ behind = []
  | expectedColon => IsSpot (· ≠ ':') blamed behind
  | missingValue => ∃ w, Blanks w ∧ blamed = w ++ ['}']
  | missingElement => ∃ w, Blanks w ∧ blamed = w ++ [',']
  | unterminatedElement => IsSpot (fun c => c ≠ ',' ∧ c ≠ ']') blamed behind
  | unterminatedField => IsSpot (fun c => c ≠ ',' ∧ c ≠ '}') blamed behind
  | restNotLast => ∃ w, Blanks w ∧ blamed = restMarker ++ w ++ [',']
  | trailingContent => (∃ c t, blamed = c :: t ∧ isBlank c = false) ∧ behind = []
  | invalidLiteral text =>
    blamed ≠ [] ∧ text = String.ofList blamed ∧ ∀ s x, ¬ Grammar.IsLiteral blamed s x

/-- Nothing is blamed only at the end of the text. -/
theorem Cause.Says.behind_eq_nil {cause : Cause} {behind : List Char} (h : cause.Says [] behind) :
    behind = [] := by
  cases cause <;> simp_all [Says, IsSpot, restMarker]

namespace Grammar

open Place

/-- A fault is told of what lies ahead of a place: behind some text, a part of it is blamed. -/
inductive Told (p : Place) : Fault → Prop
  | intro {w q t r cause} : p.Passes w q → q.Passes t r → cause.Says t r.ahead →
      cause ≠ .trailingContent → Told p ⟨cause, q.pos, r.pos⟩

section Tokens

variable {p q : Place} {n : Nat} {c : Char} {t w : List Char} {x : Node Span} {s : Stop} {f : Fault}

theorem Told.behind (hpass : p.Passes w q) (h : Told q f) : Told p f := by
  obtain ⟨hbefore, hblamed, htold, hcause⟩ := h
  exact .intro (hpass.trans hbefore) hblamed htold hcause

/-- All of what is left can be blamed. -/
theorem told_rest {cause : Cause} (hpass : p.Passes w ⟨n, t⟩) (htold : cause.Says t [])
    (hcause : cause ≠ .trailingContent) : Told p ⟨cause, n, Place.stop ⟨n, t⟩⟩ := by
  have hblamed : Passes ⟨n, t⟩ t ⟨Place.stop ⟨n, t⟩, []⟩ := ⟨by simp, rfl⟩
  exact .intro hpass hblamed htold hcause

/-- The next character behind blanks can be blamed. -/
theorem told_spot {cause : Cause} {P : Char → Prop} (hpass : p.Passes w q)
    (hchar : ∀ c ∈ q.skipSpace.ahead.head?, P c)
    (htold : ∀ t u, IsSpot P t u → cause.Says t u) (hcause : cause ≠ .trailingContent) :
    Told p ⟨cause, q.skipSpace.spot⟩ := by
  obtain ⟨u, -, hblank⟩ := q.exists_passes_skipSpace
  have hbefore := hpass.trans hblank
  obtain hnil | ⟨n, c, t, hq⟩ := q.skipSpace_cases
  · have hspot : q.skipSpace.spot = ⟨q.skipSpace.pos, q.skipSpace.pos⟩ := by simp [spot, hnil]
    rw [hspot]
    exact .intro hbefore (passes_refl _) (htold _ _ (.inr ⟨rfl, hnil⟩)) hcause
  · rw [hq] at hbefore hchar ⊢
    have hspot : Place.spot ⟨n, c :: t⟩ = ⟨n, n + 1⟩ := by simp [spot]
    have hblamed : Passes ⟨n, c :: t⟩ [c] ⟨n + 1, t⟩ := ⟨rfl, rfl⟩
    rw [hspot]
    exact .intro hbefore hblamed (htold _ _ (.inl ⟨c, rfl, hchar c rfl⟩)) hcause

/-- Blanks with nothing behind them can be blamed. -/
theorem told_emptyField {expected : Construct} (hexpected : expected = .key ∨ expected = .value)
    (h : p.skipSpace.ahead = []) : Told p ⟨.emptyField expected, p.pos, p.skipSpace.pos⟩ := by
  obtain ⟨w, hw, hblank⟩ := p.exists_passes_skipSpace
  exact .intro p.passes_refl hblank ⟨hexpected, hw, h⟩ (by simp)

theorem told_unterminatedString (hp : p.skipSpace = ⟨n, c :: t⟩) (hc : c = '"' ∨ c = '\'')
    (ht : c ∉ t) : Told p ⟨.unterminatedString c, n, Place.stop ⟨n, c :: t⟩⟩ := by
  obtain ⟨w, -, hblank⟩ := p.exists_passes_skipSpace
  rw [hp] at hblank
  exact told_rest hblank ⟨hc, ⟨t, rfl, ht⟩, rfl⟩ (by simp)

/-- Whether a token is a literal does not depend on its span. -/
theorem not_isLiteral_of_ofToken? {m : Span} (h : Node.ofToken? m t = none) (s : Span)
    (x : Node Span) : ¬ IsLiteral t s x := by
  intro hl
  have hmoved : ∃ y, IsLiteral t m y := by
    cases hl with
    | trueWord => exact ⟨_, .trueWord⟩
    | falseWord => exact ⟨_, .falseWord⟩
    | nullWord => exact ⟨_, .nullWord⟩
    | missingWord => exact ⟨_, .missingWord⟩
    | number hx => exact ⟨_, .number hx⟩
  obtain ⟨y, hy⟩ := hmoved
  rw [ofToken?_eq_some_iff.mpr hy] at h
  exact Option.some_ne_none y h

theorem told_invalidLiteral (hp : p.skipSpace = ⟨n, c :: t⟩) {token : List Char}
    (htoken : token = trimEnd (s.token (c :: t)))
    (hnone : Node.ofToken? ⟨n, n + token.length⟩ token = none) (hne : token ≠ []) :
    Told p ⟨.invalidLiteral (String.ofList token), n, n + token.length⟩ := by
  obtain ⟨w, -, hblank⟩ := p.exists_passes_skipSpace
  rw [hp] at hblank
  obtain ⟨u, -, hu⟩ := trimEnd_append_blanks (s.token (c :: t))
  have hahead : c :: t = token ++ (u ++ s.after (c :: t)) := by
    rw [← List.append_assoc, htoken, hu, s.token_append_after]
  have hblamed : Passes ⟨n, c :: t⟩ token ⟨n + token.length, u ++ s.after (c :: t)⟩ :=
    ⟨hahead, rfl⟩
  exact .intro hblank hblamed ⟨hne, rfl, not_isLiteral_of_ofToken? hnone⟩ (by simp)

/-- A bare character in the place of an entry is blamed together with the blanks before it. -/
theorem told_bare {cause : Cause} (hpass : p.Passes w q) {v : Place}
    (hvalue : ∃ t, q.skipSpace.Passes t v ∧ IsTaken s t q.skipSpace.pos x)
    (hx : x.isBare c = true) (htold : ∀ u, Blanks u → cause.Says (u ++ [c]) v.ahead)
    (hcause : cause ≠ .trailingContent) : Told p ⟨cause, q.pos, x.mark.stop⟩ := by
  obtain ⟨u, hu, hblank⟩ := q.exists_passes_skipSpace
  obtain ⟨t, htake, htaken⟩ := hvalue
  obtain rfl := htaken.eq_of_isBare hx
  have hstop : x.mark.stop = v.pos := by
    rw [htaken.mark_stop_of_isBare hx, htake.pos]
    rfl
  rw [hstop]
  exact .intro hpass (hblank.trans htake) (htold u hu) hcause

/-- A missing delimiter is told of its spot, and a comma behind a rest marker of all from the marker
on. -/
theorem told_delimiter {closing : Char} {otherwise : Cause} {rest? : Option Span} {v : Place}
    (hpass : p.Passes w v)
    (htold : ∀ t u, IsSpot (fun c => c ≠ ',' ∧ c ≠ closing) t u → otherwise.Says t u)
    (hcause : otherwise ≠ .trailingContent)
    (hrest : ∀ m, rest? = some m →
      ∃ u z r, p.Passes u r ∧ r.pos = m.start ∧ r.Passes (restMarker ++ z) v ∧ Blanks z)
    (hd : (v.delimiter closing otherwise rest?).outcome = (.error f, q)) : Told p f := by
  obtain ⟨rfl, hchar⟩ | ⟨m, n, t, hm, hcomma, rfl⟩ := delimiter_failure hd
  · exact told_spot hpass hchar htold hcause
  · obtain ⟨u, z, r, hbefore, hstart, hmarker, hz⟩ := hrest m hm
    obtain ⟨y, hy, hblank⟩ := v.exists_passes_skipSpace
    rw [hcomma] at hblank
    rw [← hstart]
    refine .intro hbefore (hmarker.trans hblank.next) ⟨z ++ y, blanks_append.mpr ⟨hz, hy⟩, ?_⟩ (by simp)
    simp

end Tokens

mutual

/-- A fault in a value is told of what lies ahead of it. -/
theorem value_told (p : Place) {s : Stop} {f : Fault} {q : Place}
    (h : (p.value s).outcome = (.error f, q)) : Told p f := by
  obtain ⟨w, -, hblank⟩ := p.exists_passes_skipSpace
  cases value_failure h with
  | empty hnil => exact told_emptyField (.inr rfl) hnil
  | string hp hc ht => exact told_unterminatedString hp hc ht
  | literal hp htoken hnone hne => exact told_invalidLiteral hp htoken hnone hne
  | @array n t _ r hp hr =>
    have lt : t.length < p.ahead.length := length_lt_of_skipSpace (by rw [hp])
    rw [hp] at hblank
    exact (items_told _ hr).behind hblank.next
  | @object n t _ r hp hr =>
    have lt : t.length < p.ahead.length := length_lt_of_skipSpace (by rw [hp])
    rw [hp] at hblank
    exact (fields_told _ hr).behind hblank.next
termination_by 2 * p.ahead.length

/-- A fault in the elements of an array is told of what lies ahead of them. -/
theorem items_told (p : Place) {f : Fault} {q : Place} (h : (items p).outcome = (.error f, q)) :
    Told p f := by
  have hspot (t u : List Char) (h : IsSpot (fun c => c ≠ ',' ∧ c ≠ ']') t u) :
      Cause.unterminatedElement.Says t u := h
  cases items_failure h with
  | element hv => exact value_told p hv
  | comma hv hx =>
    exact told_bare p.passes_refl (value_sound p hv) hx (fun u hu => ⟨u, hu, rfl⟩) (by simp)
  | @rest x v _ _ hv hrest hd =>
    obtain ⟨w, -, hblank⟩ := p.exists_passes_skipSpace
    obtain ⟨t, htake, htaken⟩ := value_sound p hv
    obtain ⟨z, rfl, hz⟩ := htaken.eq_restMarker hrest
    refine told_delimiter (hblank.trans htake) hspot (by simp) (fun m hm => ?_) hd
    refine ⟨w, z, p.skipSpace, hblank, ?_, htake, hz⟩
    rw [← Node.mark_eq_of_restSpan? hm, htaken.mark_start]
  | delimiter hx hd =>
    obtain ⟨w, t, u, -, htake, -, -⟩ := element_sound hx (value_sound p hx.value)
    exact told_delimiter htake hspot (by simp) (by simp) hd
  | @later x v r _ _ hx hd hr =>
    obtain ⟨w, t, u, -, htake, -, -⟩ := element_sound hx (value_sound p hx.value)
    obtain ⟨u', -, hpass, -, lt⟩ := comma_sound htake hd
    exact (items_told r hr).behind hpass
termination_by 2 * p.ahead.length + 1

/-- A fault in the fields of an object is told of what lies ahead of them. -/
theorem fields_told (p : Place) {f : Fault} {q : Place} (h : (fields p).outcome = (.error f, q)) :
    Told p f := by
  have hspot (t u : List Char) (h : IsSpot (fun c => c ≠ ',' ∧ c ≠ '}') t u) :
      Cause.unterminatedField.Says t u := h
  cases fields_failure h with
  | empty hnil => exact told_emptyField (.inl rfl) hnil
  | @key n c t _ _ hp hk =>
    obtain ⟨hc, ht, rfl⟩ | ⟨hend, rfl⟩ := key_failure (p.skipSpace_skipSpace.trans hp) hk
    · exact told_unterminatedString hp hc ht
    · obtain ⟨w, -, hblank⟩ := p.exists_passes_skipSpace
      rw [hp] at hblank
      have hword : ∀ d ∈ c :: t, isBlank d = false ∧ d ≠ ':' ∧ d ≠ '}' := by
        have hnone := List.dropWhile_eq_nil_iff.mp hend
        intro d hd
        simpa [Stop.holds, and_assoc] using hnone d hd
      exact told_rest hblank ⟨by simp, hword, rfl⟩ (by simp)
  | @rest key r _ _ hkey hrest hd =>
    obtain ⟨hp, _, hk⟩ := hkey
    obtain ⟨w, -, hblank⟩ := p.exists_passes_skipSpace
    obtain ⟨k, htake, hiskey | ⟨rfl, rfl⟩⟩ := key_sound (p.skipSpace_skipSpace.trans hp) hk
    · cases hiskey <;> simp [Node.isRest] at hrest
    rw [← hp] at htake
    refine told_delimiter (hblank.trans htake) hspot (by simp) (fun m hm => ?_) hd
    refine ⟨w, [], p.skipSpace, hblank, ?_, by simpa using htake, blanks_nil⟩
    rw [← Node.mark_eq_of_restSpan? hm, hp]
    rfl
  | @colon key r _ _ hkey hrest hcolon =>
    obtain ⟨hp, _, hk⟩ := hkey
    obtain ⟨w, k, -, htake, -, -⟩ := keyStep_sound hp hk hrest
    obtain ⟨rfl, hchar⟩ := colon_failure hcolon
    exact told_spot htake hchar (fun _ _ h => h) (by simp)
  | @content key r u _ _ hkey hrest hcolon hcontent =>
    obtain ⟨hp, _, hk⟩ := hkey
    obtain ⟨w, k, w', -, htake, -, -, -⟩ := keyColon_sound hp hk hrest hcolon
    have lt : u.ahead.length < p.ahead.length := by
      rw [htake.length_ahead]
      simp only [List.length_append, List.length_singleton]
      omega
    exact (value_told u hcontent).behind htake
  | @brace key r u _ _ hkey hrest hcolon hcontent hx =>
    obtain ⟨hp, _, hk⟩ := hkey
    obtain ⟨w, k, w', -, htake, -, -, -⟩ := keyColon_sound hp hk hrest hcolon
    exact told_bare htake (value_sound u hcontent) hx (fun z hz => ⟨z, hz, rfl⟩) (by simp)
  | delimiter hx hd =>
    obtain ⟨w, t, u, -, htake, -, -⟩ := field_sound hx fun r _ hr => value_sound r hr
    exact told_delimiter htake hspot (by simp) (by simp) hd
  | @later key x v r _ _ hx hd hr =>
    obtain ⟨w, t, u, -, htake, -, -⟩ := field_sound hx fun r _ hr => value_sound r hr
    obtain ⟨u', -, hpass, -, lt⟩ := comma_sound htake hd
    exact (fields_told r hr).behind hpass
termination_by 2 * p.ahead.length + 1

end

end Grammar

/-- A syntax error is well formed and says what is true of a source: its span lies in the source and
is empty only at the end, there is a hint exactly where something follows a whole pattern, and the
cause holds of the blamed text. -/
structure SyntaxError.TrueOf (source : String) (e : SyntaxError) : Prop where
  source_eq : e.source = source
  patternSpan_eq : e.patternSpan = ⟨0, source.length⟩
  ordered : e.fault.span.start ≤ e.fault.span.stop
  bounded : e.fault.span.stop ≤ source.length
  start_eq : e.fault.span.isEmpty = true → e.fault.span.start = source.length
  help_iff : e.help.isSome = true ↔ e.fault.cause = .trailingContent
  told : e.fault.cause.Says (e.fault.span.slice source.toList)
    (source.toList.drop e.fault.span.stop)
  trailing : e.fault.cause = .trailingContent →
    ∃ p, Pattern.compile (String.ofList (source.toList.take e.fault.span.start)) = .ok p

namespace Pattern

open Place Grammar

variable {source : String} {e : SyntaxError} {w t : List Char} {q r : Place}

/-- An error with a true cause is true of its source. -/
theorem trueOf_of_passes {help : Option String} {cause : Cause}
    (hbefore : (first source.toList).Passes w q) (hblamed : q.Passes t r)
    (htold : cause.Says t r.ahead) (hhelp : help.isSome = true ↔ cause = .trailingContent)
    (htrailing : cause = .trailingContent → ∃ p, compile (String.ofList w) = .ok p) :
    SyntaxError.TrueOf source ⟨source, ⟨0, source.length⟩, ⟨cause, q.pos, r.pos⟩, help⟩ := by
  have htext : source.toList = w ++ t ++ r.ahead := (hbefore.trans hblamed).ahead
  have hstart : q.pos = w.length := by
    rw [hbefore.pos]
    exact Nat.zero_add _
  have hstop : r.pos = w.length + t.length := by rw [hblamed.pos, hstart]
  have hlength : source.length = w.length + t.length + r.ahead.length := by
    rw [← String.length_toList, htext, List.length_append, List.length_append]
  have hslice : Span.slice ⟨q.pos, r.pos⟩ source.toList = t := by
    rw [hstart, hstop, htext]
    exact Span.slice_append w t r.ahead
  have hbehind : source.toList.drop r.pos = r.ahead := by
    rw [hstop, htext, ← List.length_append, List.drop_left]
  refine ⟨rfl, rfl, ?_, ?_, ?_, hhelp, ?_, ?_⟩
  · exact (by omega : q.pos ≤ r.pos)
  · exact (by omega : r.pos ≤ source.length)
  · intro hempty
    have heq : q.pos = r.pos := by simpa [Span.isEmpty] using hempty
    obtain rfl : t = [] := List.eq_nil_of_length_eq_zero (by omega)
    rw [htold.behind_eq_nil] at hlength
    simpa [hstart] using hlength.symm
  · rwa [hslice, hbehind]
  · intro hcause
    have hwhole : source.toList.take q.pos = w := by
      rw [hstart, htext, List.append_assoc, List.take_left]
    rw [hwhole]
    exact htrailing hcause

/-- Whatever is wrong with a source, the error is well formed and says what is true of the source. -/
theorem trueOf_of_compile_error (source : String) (e : SyntaxError)
    (h : compile source = .error e) : e.TrueOf source := by
  obtain ⟨hsource, hspan, hroot⟩ := compile_eq_error_iff.mp h
  obtain ⟨esource, espan, f, help⟩ := e
  dsimp only at hsource hspan hroot
  subst hsource hspan
  obtain ⟨q, hvalue, rfl⟩ | ⟨x, q, hvalue, hend, rfl, rfl⟩ := readRoot_eq_error hroot
  · obtain ⟨w, -, hblank⟩ := (first esource.toList).exists_passes_skipSpace
    obtain ⟨hbefore, hblamed, htold, hcause⟩ := (value_told _ hvalue).behind hblank
    exact trueOf_of_passes hbefore hblamed htold (by simp [hcause]) (fun h => absurd h hcause)
  · obtain ⟨t, hpass, hpattern⟩ := isPattern_of_value hvalue
    obtain hnil | ⟨n, c, u, hq⟩ := q.skipSpace_cases
    · exact absurd hnil hend
    have hsolid := q.startsSolid_skipSpace
    rw [hq] at hsolid hpass ⊢
    have hblamed : Passes ⟨n, c :: u⟩ (c :: u) ⟨Place.stop ⟨n, c :: u⟩, []⟩ := ⟨by simp, rfl⟩
    -- the text up to the blamed one derives the same tree, so it reads as that
    have hbefore : compile (String.ofList t) = .ok ⟨String.ofList t, some x⟩ := by
      rw [compile_eq_ok_iff_readRoot, String.toList_ofList]
      exact ⟨rfl, readRoot_of_isPattern hpattern⟩
    exact trueOf_of_passes hpass hblamed ⟨⟨c, u, rfl, startsSolid_cons.mp hsolid⟩, rfl⟩ (by simp)
      (fun _ => ⟨_, hbefore⟩)

/-- What stands behind a whole pattern is blamed, with a hint, and the pattern before it compiles. -/
theorem trueOf_of_compile_error_trailing :
    let e : SyntaxError := ⟨" [null] x ", ⟨0, 10⟩, ⟨.trailingContent, 8, 10⟩, some singleExpressionHelp⟩
    compile " [null] x " = .error e ∧ e.TrueOf " [null] x " := by
  intro e
  have herror : compile " [null] x " = .error e := by cbv
  exact ⟨herror, trueOf_of_compile_error _ e herror⟩

end Pattern

end ValuePattern
