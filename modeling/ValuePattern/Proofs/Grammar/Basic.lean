import ValuePattern.Node.Token
import ValuePattern.Proofs.Text.Blanks
/-!
The grammar of patterns. A production relates a text, the position at which it stands in the whole
pattern, and the tree that it derives; nothing is said here about how a text is scanned, where a
token stops, or what comes next. Arrays and objects share the productions of their entries, which are
given what an entry derives from.
-/
namespace ValuePattern.Grammar

open Text

/-- One of the two quotes, any characters other than that quote, and the same quote again. -/
inductive IsQuoted : List Char → String → Prop
  | intro {q : Char} {inside : List Char} : q = '"' ∨ q = '\'' → q ∉ inside →
      IsQuoted (q :: (inside ++ [q])) (String.ofList inside)

/-- A word of the language or a number. -/
inductive IsLiteral : List Char → Span → Node Span → Prop
  | trueWord {s} : IsLiteral "true".toList s (.boolean s true)
  | falseWord {s} : IsLiteral "false".toList s (.boolean s false)
  | nullWord {s} : IsLiteral "null".toList s (.null s)
  | missingWord {s} : IsLiteral "missing".toList s (.missing s)
  | number {t s x} : Numeral.read? t = some x → IsLiteral t s (.number s x)

/-- A string in quotes, or a bare word: characters that are no blank, colon or closing brace, none
at all included, which begin neither with a quote nor with the rest marker. -/
inductive IsKey : List Char → Nat → Node Span → Prop
  | quoted {t n name} : IsQuoted t name → IsKey t n (.string ⟨n, n + t.length⟩ name)
  | bare {t n} : (∀ c ∈ t, isBlank c = false ∧ c ≠ ':' ∧ c ≠ '}') → '"' ∉ t.head? → '\'' ∉ t.head? →
      ¬restMarker <+: t → IsKey t n (.string ⟨n, n + t.length⟩ (String.ofList t))

section Entries

variable {α : Type}

/-- Entries with commas between them. A rest marker may take the place of the last one, which makes
the list open and is no entry. -/
inductive Entries (E : List Char → Nat → α → Prop) : List Char → Nat → List α → Bool → Prop
  | last {t n a} : E t n a → Entries E t n [a] false
  | rest {n} : Entries E restMarker n [] true
  | cons {t w u r n a as isOpen} : E t n a → Blanks w → Blanks u →
      Entries E r (n + (t ++ w ++ ',' :: u).length) as isOpen →
      Entries E (t ++ w ++ ',' :: u ++ r) n (a :: as) isOpen

/-- What stands behind an opening character, up to and with the closing one: nothing, or entries,
with one more comma behind them unless they are open. -/
inductive Body (closing : Char) (E : List Char → Nat → α → Prop) :
    List Char → Nat → List α → Bool → Prop
  | empty {w n} : Blanks w → Body closing E (w ++ [closing]) n [] false
  | entries {w t u n as isOpen} : Blanks w → Entries E t (n + w.length) as isOpen → Blanks u →
      Body closing E (w ++ t ++ u ++ [closing]) n as isOpen
  | trailing {w t u v n as} : Blanks w → Entries E t (n + w.length) as false → Blanks u →
      Blanks v → Body closing E (w ++ t ++ u ++ ',' :: v ++ [closing]) n as false

end Entries

/-- What stands behind a colon: a value, or a comma without quotes, which is a string. -/
inductive IsContent (V : List Char → Nat → Node Span → Prop) : List Char → Nat → Node Span → Prop
  | value {t n x} : V t n x → IsContent V t n x
  | comma {n} : IsContent V [','] n (.string ⟨n, n + 1⟩ ",")

/-- A field of an object: a key, a colon and the content. Blanks before a colon without a key are
not behind the empty key but before it, where a field may have blanks anyway. -/
inductive IsField (V : List Char → Nat → Node Span → Prop) :
    List Char → Nat → Node Span × Node Span → Prop
  | intro {k w u v n key x} : IsKey k n key → Blanks w → (k = [] → w = []) → Blanks u →
      IsContent V v (n + (k ++ w ++ ':' :: u).length) x →
      IsField V (k ++ w ++ ':' :: u ++ v) n (key, x)

/-- The values of the language with their trees. The rest marker is one, but no element of an array
is a rest marker. -/
inductive IsValue : List Char → Nat → Node Span → Prop
  | string {t n text} : IsQuoted t text → IsValue t n (.string ⟨n, n + t.length⟩ text)
  | literal {t n x} : IsLiteral t ⟨n, n + t.length⟩ x → IsValue t n x
  | rest {n} : IsValue restMarker n (.rest ⟨n, n + restMarker.length⟩)
  | array {t n elements isOpen} : Body ']' IsValue t (n + 1) elements isOpen →
      (∀ x ∈ elements, x.isRest = false) →
      IsValue ('[' :: t) n (.array ⟨n, n + ('[' :: t).length⟩ elements isOpen)
  | object {t n pairs isOpen} : Body '}' (IsField IsValue) t (n + 1) pairs isOpen →
      IsValue ('{' :: t) n (.object ⟨n, n + ('{' :: t).length⟩ pairs isOpen)

/-- A pattern is blanks alone, without a tree, or one value with blanks around it. -/
inductive IsPattern : List Char → Option (Node Span) → Prop
  | blank {t} : Blanks t → IsPattern t none
  | value {w t u x} : Blanks w → IsValue t w.length x → Blanks u →
      IsPattern (w ++ t ++ u) (some x)

section Entries

variable {α : Type} {closing : Char} {E F : List Char → Nat → α → Prop}
variable {t w u r : List Char} {n m : Nat} {a : α} {as : List α} {isOpen : Bool}

theorem Entries.imp (h : ∀ t n, ∀ a ∈ as, E t n a → F t n a) (he : Entries E t n as isOpen) :
    Entries F t n as isOpen := by
  induction he with
  | last ha => exact .last (h _ _ _ List.mem_cons_self ha)
  | rest => exact .rest
  | cons ha hw hu _ ih =>
    refine .cons (h _ _ _ List.mem_cons_self ha) hw hu (ih ?_)
    intro t n a ha
    exact h t n a (List.mem_cons_of_mem _ ha)

theorem Body.imp (h : ∀ t n, ∀ a ∈ as, E t n a → F t n a) (hb : Body closing E t n as isOpen) :
    Body closing F t n as isOpen := by
  cases hb with
  | empty hw => exact .empty hw
  | entries hw he hu => exact .entries hw (he.imp h) hu
  | trailing hw he hu hv => exact .trailing hw (he.imp h) hu hv

theorem Entries.exists_append_of_mem (he : Entries E t n as isOpen) :
    ∀ a ∈ as, ∃ before u behind, t = before ++ u ++ behind ∧ E u (n + before.length) a := by
  induction he with
  | @last t n a ha => simpa using ⟨[], t, ⟨[], by simp⟩, ha⟩
  | rest => simp
  | @cons t w u r n a as isOpen ha _ _ _ ih =>
    refine List.forall_mem_cons.mpr ⟨⟨[], t, w ++ ',' :: u ++ r, by simp, ha⟩, fun a' ha' => ?_⟩
    obtain ⟨before, u', behind, rfl, hE⟩ := ih a' ha'
    refine ⟨t ++ w ++ ',' :: u ++ before, u', behind, by simp, ?_⟩
    rwa [Nat.add_assoc, ← List.length_append] at hE

/-- Every entry of a body derives from a part of its text, at the position of that part. -/
theorem Body.exists_append_of_mem (hb : Body closing E t n as isOpen) :
    ∀ a ∈ as, ∃ before u behind, t = before ++ u ++ behind ∧ E u (n + before.length) a := by
  have within {w t : List Char} {as : List α} {isOpen : Bool}
      (he : Entries E t (n + w.length) as isOpen) (behind : List Char) :
      ∀ a ∈ as, ∃ before u later, w ++ t ++ behind = before ++ u ++ later ∧
        E u (n + before.length) a := by
    intro a ha
    obtain ⟨before, u, later, rfl, hE⟩ := he.exists_append_of_mem a ha
    refine ⟨w ++ before, u, later ++ behind, by simp, ?_⟩
    rwa [List.length_append, ← Nat.add_assoc]
  cases hb with
  | empty _ => simp
  | @entries w t u _ _ _ _ he _ => simpa using within he (u ++ [closing])
  | @trailing w t u v _ _ _ he _ _ => simpa using within he (u ++ ',' :: v ++ [closing])

/-- Every entry of a body derives from some text. -/
theorem Body.exists_of_mem (hb : Body closing E t n as isOpen) : ∀ a ∈ as, ∃ u k, E u k a := by
  intro a ha
  obtain ⟨_, u, _, -, hE⟩ := hb.exists_append_of_mem a ha
  exact ⟨u, _, hE⟩

/-- One more entry and a comma before a body make a body. -/
theorem Body.cons (hw : Blanks w) (ha : E t (n + w.length) a) (hu : Blanks u)
    (hb : Body closing E r (n + (w ++ t ++ u).length + 1) as isOpen) :
    Body closing E (w ++ t ++ u ++ ',' :: r) n (a :: as) isOpen := by
  have position (v : List Char) : n + (w ++ t ++ u).length + 1 + v.length =
      n + w.length + (t ++ u ++ ',' :: v).length := by
    simp only [List.length_append, List.length_cons]
    omega
  cases hb with
  | empty hv => simpa using Body.trailing hw (.last ha) hu hv
  | entries hv he hx =>
    rw [position] at he
    simpa using Body.entries hw (.cons ha hu hv he) hx
  | trailing hv he hx hy =>
    rw [position] at he
    simpa using Body.trailing hw (.cons ha hu hv he) hx hy

/-- A body is read from the left: it closes at once, or has a rest marker, a last entry, or an entry
with a comma and another body behind it. -/
theorem Body.induction {motive : List Char → Nat → List α → Bool → Prop}
    (empty : ∀ {w n}, Blanks w → motive (w ++ [closing]) n [] false)
    (rest : ∀ {w u n}, Blanks w → Blanks u → motive (w ++ restMarker ++ u ++ [closing]) n [] true)
    (last : ∀ {w t u n a}, Blanks w → E t (n + w.length) a → Blanks u →
      motive (w ++ t ++ u ++ [closing]) n [a] false)
    (cons : ∀ {w t u r n a as isOpen}, Blanks w → E t (n + w.length) a → Blanks u →
      motive r (n + (w ++ t ++ u).length + 1) as isOpen →
      motive (w ++ t ++ u ++ ',' :: r) n (a :: as) isOpen)
    (h : Body closing E t n as isOpen) : motive t n as isOpen := by
  -- `tail` is the text behind the entries, given as what it does behind a last one
  have scan {t : List Char} {p : Nat} {as : List α} {isOpen : Bool} (he : Entries E t p as isOpen)
      (tail : List Char)
      (stop : ∀ {w n}, Blanks w → isOpen = true → motive (w ++ restMarker ++ tail) n [] true)
      (done : ∀ {w t n a}, Blanks w → E t (n + w.length) a → isOpen = false →
        motive (w ++ t ++ tail) n [a] false) :
      ∀ {w n}, Blanks w → p = n + w.length → motive (w ++ t ++ tail) n as isOpen := by
    induction he with
    | last ha =>
      rintro w n hw rfl
      exact done hw ha rfl
    | rest =>
      rintro w n hw rfl
      exact stop hw rfl
    | @cons t v x r p a as isOpen ha hv hx he ih =>
      rintro w n hw rfl
      have position : n + w.length + (t ++ v ++ ',' :: x).length =
          n + (w ++ t ++ v).length + 1 + x.length := by
        simp only [List.length_append, List.length_cons]
        omega
      simpa using cons hw ha hv (ih stop done hx position)
  cases h with
  | empty hw => exact empty hw
  | @entries w t u n as isOpen hw he hu =>
    have h := scan he (u ++ [closing])
      (fun hw _ => by simpa using rest hw hu)
      (fun hw ha _ => by simpa using last hw ha hu) hw rfl
    simpa using h
  | @trailing w t u v n as hw he hu hv =>
    have h := scan he (u ++ ',' :: (v ++ [closing]))
      (fun _ hfalse => by simp at hfalse)
      (fun hw ha _ => by simpa using cons hw ha hu (empty hv)) hw rfl
    simpa using h

end Entries

/-- Induction over values: the entries of an array or object are values for which the statement is
known. -/
theorem IsValue.induction {motive : List Char → Nat → Node Span → Prop}
    (string : ∀ {t n text}, IsQuoted t text → motive t n (.string ⟨n, n + t.length⟩ text))
    (literal : ∀ {t n x}, IsLiteral t ⟨n, n + t.length⟩ x → motive t n x)
    (rest : ∀ {n}, motive restMarker n (.rest ⟨n, n + restMarker.length⟩))
    (array : ∀ {t n elements isOpen},
      Body ']' (fun t n x => IsValue t n x ∧ motive t n x) t (n + 1) elements isOpen →
      (∀ x ∈ elements, x.isRest = false) →
      motive ('[' :: t) n (.array ⟨n, n + ('[' :: t).length⟩ elements isOpen))
    (object : ∀ {t n pairs isOpen},
      Body '}' (IsField fun t n x => IsValue t n x ∧ motive t n x) t (n + 1) pairs isOpen →
      motive ('{' :: t) n (.object ⟨n, n + ('{' :: t).length⟩ pairs isOpen))
    {t : List Char} {n : Nat} {x : Node Span} (h : IsValue t n x) : motive t n x := by
  let V (t : List Char) (n : Nat) (x : Node Span) : Prop := IsValue t n x ∧ motive t n x
  refine @IsValue.rec (fun t n x _ => motive t n x)
    (fun t n xs isOpen _ => Body ']' V t n xs isOpen)
    (fun t n ps isOpen _ => Body '}' (IsField V) t n ps isOpen)
    (fun t n xs isOpen _ => Entries V t n xs isOpen)
    (fun t n ps isOpen _ => Entries (IsField V) t n ps isOpen)
    (fun t n p _ => IsField V t n p)
    (fun t n x _ => IsContent V t n x)
    string literal rest (fun _ hrest hb => array hb hrest) (fun _ hb => object hb)
    ?_ ?_ ?_ ?_ ?_ ?_ ?_ ?_ ?_ ?_ ?_ ?_ ?_ ?_ ?_ t n x h
  -- the body of an array, then that of an object
  · exact fun hw => .empty hw
  · exact fun hw _ hu he => .entries hw he hu
  · exact fun hw _ hu hv he => .trailing hw he hu hv
  · exact fun hw => .empty hw
  · exact fun hw _ hu he => .entries hw he hu
  · exact fun hw _ hu hv he => .trailing hw he hu hv
  -- the entries of an array, then those of an object
  · exact fun hx hm => .last ⟨hx, hm⟩
  · exact .rest
  · exact fun hx hw hu _ hm he => .cons ⟨hx, hm⟩ hw hu he
  · exact fun _ hp => .last hp
  · exact .rest
  · exact fun _ hw hu _ hp he => .cons hp hw hu he
  -- a field and its content
  · exact fun hk hw hempty hu _ hx => .intro hk hw hempty hu hx
  · exact fun hx hm => .value ⟨hx, hm⟩
  · exact .comma

section Values

variable {t : List Char} {n : Nat} {x : Node Span}

/-- A value is no bare character: a string in quotes is longer. -/
theorem IsValue.isBare_eq_false (h : IsValue t n x) (c : Char) : x.isBare c = false := by
  cases h with
  | string hq =>
    cases hq with
    | intro _ _ => simp [Node.isBare, Span.length]
  | literal hl => cases hl <;> rfl
  | rest => rfl
  | array _ _ => rfl
  | object _ => rfl

theorem IsLiteral.mark_eq {s : Span} (h : IsLiteral t s x) : x.mark = s := by
  cases h <;> rfl

/-- The span of a value is that of its text. -/
theorem IsValue.mark_eq (h : IsValue t n x) : x.mark = ⟨n, n + t.length⟩ := by
  cases h with
  | literal hl => exact hl.mark_eq
  | _ => rfl

theorem IsKey.eq_string {key : Node Span} (h : IsKey t n key) :
    ∃ mark name, key = .string mark name := by
  cases h <;> exact ⟨_, _, rfl⟩

/-- The keys of an object that was read are strings. -/
theorem IsValue.keys_string {mark : Span} {pairs : List (Node Span × Node Span)} {isOpen : Bool}
    (h : IsValue t n (.object mark pairs isOpen)) :
    ∀ pair ∈ pairs, ∃ mark name, pair.1 = .string mark name := by
  intro pair hpair
  cases h with
  | literal hl => cases hl
  | object hbody =>
    obtain ⟨_, _, hfield⟩ := hbody.exists_of_mem pair hpair
    cases hfield with
    | intro hkey _ _ _ _ => exact hkey.eq_string

theorem IsValue.eq_restMarker (h : IsValue t n x) (hx : x.isRest = true) : t = restMarker := by
  cases h with
  | rest => rfl
  | literal hl => cases hl <;> simp [Node.isRest] at hx
  | _ => simp [Node.isRest] at hx

end Values

end ValuePattern.Grammar
