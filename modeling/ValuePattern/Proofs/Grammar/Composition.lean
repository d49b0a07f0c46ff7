import Mathlib
import ValuePattern.Proofs.Grammar.Compile
import ValuePattern.Proofs.Grammar.Shift
/-!
Patterns are made of patterns. What stands in a pattern as an element or a field value is a pattern
when it is cut out, with the same tree; and patterns that are put side by side between brackets or
braces are the elements or field values of a pattern. In either direction spans move by as much as the
text does.
-/
namespace ValuePattern

/-- The values right below the root: the elements of an array, the field values of an object. -/
def Node.entries {α : Type} : Node α → List (Node α)
  | array _ elements _ => elements
  | object _ pairs _ => pairs.map (·.2)
  | _ => []

namespace Grammar

open Node Text Parts

section Cut

variable {t : List Char} {n : Nat} {x m : Node Span}

/-- The text of an entry stands in the text of the value. -/
theorem IsValue.exists_append_of_mem_entries (h : IsValue t n x) (hm : m ∈ x.entries) :
    ∃ before u behind, t = before ++ u ++ behind ∧ IsContent IsValue u (n + before.length) m := by
  cases h with
  | string _ => simp [entries] at hm
  | literal hl => cases hl <;> simp [entries] at hm
  | rest => simp [entries] at hm
  | array hbody _ =>
    obtain ⟨before, u, behind, rfl, hu⟩ := hbody.exists_append_of_mem m hm
    refine ⟨'[' :: before, u, behind, by simp, .value ?_⟩
    rwa [List.length_cons, Nat.add_comm before.length, ← Nat.add_assoc]
  | object hbody =>
    obtain ⟨⟨key, _⟩, hp, rfl⟩ := List.mem_map.mp hm
    obtain ⟨before, _, behind, rfl, hfield⟩ := hbody.exists_append_of_mem _ hp
    cases hfield with
    | @intro k w u v _ _ _ _ _ _ _ hv =>
      refine ⟨'{' :: (before ++ (k ++ w ++ ':' :: u)), v, behind, by simp, ?_⟩
      have hposition : n + ('{' :: (before ++ (k ++ w ++ ':' :: u))).length =
          n + 1 + before.length + (k ++ w ++ ':' :: u).length := by
        simp only [List.length_cons, List.length_append]
        omega
      rwa [hposition]

/-- The text of an entry at any depth stands in the text of the value, and derives that entry. -/
theorem exists_append_of_isPart (hm : IsPart entries m x) (hcomma : m.isBare ',' = false)
    (h : IsValue t n x) :
    ∃ before u behind, t = before ++ u ++ behind ∧ IsValue u (n + before.length) m := by
  induction hm generalizing t n with
  | self => exact ⟨[], t, [], by simp, h⟩
  | child hy hm ih =>
    obtain ⟨before, u, behind, rfl, hu⟩ := h.exists_append_of_mem_entries hy
    cases hu with
    | value hu =>
      obtain ⟨before', v, behind', rfl, hv⟩ := ih hu
      refine ⟨before ++ before', v, behind' ++ behind, by simp, ?_⟩
      rwa [List.length_append, ← Nat.add_assoc]
    | comma =>
      -- a comma has no entries, so it would be the part itself
      cases hm with
      | self => simp [isBare, Span.length] at hcomma
      | child hz _ => simp [entries] at hz

end Cut

section Joined

variable {α : Type} {move : Nat → α → α} {E : List Char → Nat → α → Prop}

/-- Something is derived from a text but for blanks at both ends. -/
def Spaced (E : List Char → Nat → α → Prop) (t : List Char) (n : Nat) (a : α) : Prop :=
  ∃ w u v, t = w ++ u ++ v ∧ Blanks w ∧ E u (n + w.length) a ∧ Blanks v

/-- What comes of texts that stand one behind another, with one character between them and the first
at a given position: each thing is moved to the position of its text. -/
def placed (move : Nat → α → α) : Nat → List (String × α) → List α
  | _, [] => []
  | n, (text, a) :: parts => move n a :: placed move (n + text.length + 1) parts

theorem exists_of_mem_placed {a : α} {n : Nat} {parts : List (String × α)}
    (h : a ∈ placed move n parts) : ∃ part ∈ parts, ∃ k, a = move k part.2 := by
  induction parts generalizing n with
  | nil => simp [placed] at h
  | cons part parts ih =>
    rcases List.mem_cons.mp h with rfl | h
    · exact ⟨part, List.mem_cons_self, n, rfl⟩
    · obtain ⟨part', hpart', hk⟩ := ih h
      exact ⟨part', List.mem_cons_of_mem part hpart', hk⟩

/-- Texts with commas between them and a closing character behind them make a body. -/
theorem body_joined (closing : Char) {parts : List (String × α)} (hne : parts ≠ [])
    (h : ∀ part ∈ parts, ∀ k, Spaced E part.1.toList k (move k part.2)) (n : Nat) :
    Body closing E ((",".intercalate (parts.map (·.1))).toList ++ [closing]) n
      (placed move n parts) false := by
  induction parts generalizing n with
  | nil => exact absurd rfl hne
  | cons part parts ih =>
    obtain ⟨hpart, hparts⟩ := List.forall_mem_cons.mp h
    obtain ⟨w, u, v, htext, hw, hu, hv⟩ := hpart n
    cases parts with
    | nil =>
      have hbody : Body closing E (w ++ u ++ v ++ [closing]) n [move n part.2] false :=
        .entries hw (.last hu) hv
      rw [← htext] at hbody
      simpa [placed] using hbody
    | cons part' parts =>
      have hlater := ih (by simp) hparts (n + part.1.length + 1)
      rw [← String.length_toList, htext] at hlater
      have hbody := Body.cons hw hu hv hlater
      rw [← htext, String.length_toList] at hbody
      simpa [placed] using hbody

end Joined

section Compiled

variable {source : String} {root : Node Span}

theorem readRoot_of_isValue {t : List Char} (h : IsValue t 0 root) :
    Pattern.readRoot t = .ok (some root) := by
  have hpattern : IsPattern ([] ++ t ++ []) (some root) := .value blanks_nil h blanks_nil
  simpa using Pattern.readRoot_of_isPattern hpattern

/-- A source that is read has its tree wherever it stands, with the blanks around it. -/
theorem spaced_of_compile (h : Pattern.compile source = .ok ⟨source, some root⟩) (k : Nat) :
    Spaced IsValue source.toList k (root.shift k) := by
  obtain ⟨-, hread⟩ := Pattern.compile_eq_ok_iff_readRoot.mp h
  generalize source.toList = text at hread
  cases Pattern.isPattern_of_readRoot hread with
  | @value w t u x hw hx hu =>
    obtain ⟨y, rfl, hy⟩ := hx.movable
    refine ⟨w, t, u, rfl, hw, ?_, hu⟩
    rw [shift_shift, Nat.add_comm]
    exact hy _

end Compiled

end Grammar

namespace Pattern

open Grammar Text

/-- Texts with commas between them and an opening and a closing text around them. -/
def enclosed (opening closing : String) (texts : List String) : String :=
  opening ++ ",".intercalate texts ++ closing

/-- A name in quotes, a colon and the text of a value. -/
def fieldText (name source : String) : String := "\"" ++ name ++ "\":" ++ source

/-- A field with the text of its value and the tree of that text, as a text with what it derives. -/
def fieldPart (field : String × String × Node Span) : String × (Node Span × Node Span) :=
  (fieldText field.1 field.2.1,
    (.string ⟨0, field.1.length + 2⟩ field.1, field.2.2.shift (field.1.length + 3)))

/-- An element or a field value, at any depth, is the pattern of its own text. -/
theorem compile_slice {source : String} {root part : Node Span}
    (hcompile : compile source = .ok ⟨source, some root⟩)
    (hpart : Parts.IsPart Node.entries part root) (hcomma : part.isBare ',' = false) :
    ∃ x, compile (String.ofList (part.mark.slice source.toList)) =
        .ok ⟨String.ofList (part.mark.slice source.toList), some x⟩ ∧
      x.shift part.mark.start = part := by
  obtain ⟨w, t, v, htext, -, hroot, -⟩ := spaced_of_compile hcompile 0
  rw [Node.shift_zero, Nat.zero_add] at hroot
  obtain ⟨before, u, behind, rfl, hu⟩ := exists_append_of_isPart hpart hcomma hroot
  have hslice : part.mark.slice source.toList = u := by
    have h := Span.slice_append (w ++ before) u (behind ++ v)
    rw [List.length_append] at h
    rw [hu.mark_eq, htext]
    simpa using h
  rw [hslice, hu.mark_eq]
  obtain ⟨y, rfl, hy⟩ := hu.movable
  have hvalue := hy 0
  rw [Node.shift_zero] at hvalue
  refine ⟨y, compile_eq_ok_iff_readRoot.mpr ⟨rfl, ?_⟩, rfl⟩
  simpa using readRoot_of_isValue hvalue

theorem compile_of_isValue {text : String} {x : Node Span} (h : IsValue text.toList 0 x) :
    compile text = .ok ⟨text, some x⟩ :=
  compile_eq_ok_iff_readRoot.mpr ⟨rfl, readRoot_of_isValue h⟩

/-- Sources between brackets are the elements of an array. -/
theorem compile_brackets {parts : List (String × Node Span)} (hne : parts ≠ [])
    (h : ∀ part ∈ parts, compile part.1 = .ok ⟨part.1, some part.2⟩ ∧ part.2.isRest = false) :
    compile (enclosed "[" "]" (parts.map (·.1))) =
      .ok ⟨enclosed "[" "]" (parts.map (·.1)),
        some (.array ⟨0, (enclosed "[" "]" (parts.map (·.1))).length⟩
          (placed Node.shift 1 parts) false)⟩ := by
  have hbody := body_joined ']' hne (fun part hpart k => spaced_of_compile (h part hpart).1 k) 1
  have hrest : ∀ x ∈ placed Node.shift 1 parts, x.isRest = false := by
    intro x hx
    obtain ⟨part, hpart, k, rfl⟩ := exists_of_mem_placed hx
    rw [Node.isRest_shift, (h part hpart).2]
  have htext : (enclosed "[" "]" (parts.map (·.1))).toList =
      '[' :: ((",".intercalate (parts.map (·.1))).toList ++ [']']) := by simp [enclosed]
  apply compile_of_isValue
  rw [← String.length_toList, htext]
  simpa using IsValue.array (n := 0) hbody hrest

/-- A name in quotes with a colon and a source behind it is a field. -/
theorem spaced_fieldPart {name source : String} {root : Node Span} (hname : '"' ∉ name.toList)
    (h : compile source = .ok ⟨source, some root⟩) (k : Nat) :
    Spaced (IsField IsValue) (fieldPart (name, source, root)).1.toList k
      (Node.shiftPair k (fieldPart (name, source, root)).2) := by
  have hquoted : IsQuoted ('"' :: (name.toList ++ ['"'])) name := by
    simpa using IsQuoted.intro (.inl rfl) hname
  have hlength : ('"' :: (name.toList ++ ['"'])).length = name.length + 2 := by
    simp [String.length_toList]
  obtain ⟨w, t, v, htext, hw, hroot, hv⟩ := spaced_of_compile h (name.length + 3 + k)
  have hposition : name.length + 3 + k + w.length =
      k + ('"' :: (name.toList ++ ['"']) ++ [] ++ ':' :: w).length := by
    rw [List.append_nil, List.length_append, hlength, List.length_cons]
    omega
  rw [hposition] at hroot
  have hfield := IsField.intro (.quoted (n := k) hquoted) blanks_nil (fun _ => rfl) hw (.value hroot)
  rw [hlength] at hfield
  refine ⟨[], '"' :: (name.toList ++ ['"']) ++ [] ++ ':' :: w ++ t, v, ?_, blanks_nil, ?_, hv⟩
  · simp [fieldPart, fieldText, htext]
  · rw [Node.shiftPair, fieldPart, Node.shift_shift, Node.shift, Node.map, Span.shift_from_zero]
    exact hfield

/-- Sources behind names and colons, between braces, are the field values of an object. -/
theorem compile_braces {fields : List (String × String × Node Span)} (hne : fields ≠ [])
    (h : ∀ field ∈ fields, '"' ∉ field.1.toList ∧
      compile field.2.1 = .ok ⟨field.2.1, some field.2.2⟩) :
    compile (enclosed "\x7b" "\x7d" (fields.map fun field => fieldText field.1 field.2.1)) =
      .ok ⟨enclosed "\x7b" "\x7d" (fields.map fun field => fieldText field.1 field.2.1),
        some (.object
          ⟨0, (enclosed "\x7b" "\x7d"
            (fields.map fun field => fieldText field.1 field.2.1)).length⟩
          (placed Node.shiftPair 1 (fields.map fieldPart)) false)⟩ := by
  have hparts : ∀ part ∈ fields.map fieldPart, ∀ k,
      Spaced (IsField IsValue) part.1.toList k (Node.shiftPair k part.2) := by
    intro part hpart k
    obtain ⟨⟨name, source, root⟩, hfield, rfl⟩ := List.mem_map.mp hpart
    obtain ⟨hname, hcompile⟩ := h _ hfield
    exact spaced_fieldPart hname hcompile k
  have hbody := body_joined '}' (mt List.map_eq_nil_iff.mp hne) hparts 1
  have htexts : (fields.map fieldPart).map (·.1) =
      fields.map fun field => fieldText field.1 field.2.1 := by
    rw [List.map_map]
    rfl
  rw [htexts] at hbody
  have htext : (enclosed "\x7b" "\x7d"
      (fields.map fun field => fieldText field.1 field.2.1)).toList = '{' ::
        ((",".intercalate (fields.map fun field => fieldText field.1 field.2.1)).toList ++ ['}']) := by
    simp [enclosed]
  apply compile_of_isValue
  rw [← String.length_toList, htext]
  simpa using IsValue.object (n := 0) hbody

/-- Patterns are compositional, spans included. The text at the span of an element or field value, at
any depth, is a pattern with that tree, moved back to the beginning; a field value that is a comma
without quotes is no pattern. Sources with trees make an array, if none of those is a rest marker, and
with names that have no double quote in them an object; each tree is moved to where its source
stands. -/
theorem compile_compositional :
    (∀ (source : String) (root part : Node Span), compile source = .ok ⟨source, some root⟩ →
      Parts.IsPart Node.entries part root → part.isBare ',' = false →
      ∃ x, compile (String.ofList (part.mark.slice source.toList)) =
          .ok ⟨String.ofList (part.mark.slice source.toList), some x⟩ ∧
        x.shift part.mark.start = part) ∧
    (∀ parts : List (String × Node Span), parts ≠ [] →
      (∀ part ∈ parts, compile part.1 = .ok ⟨part.1, some part.2⟩ ∧ part.2.isRest = false) →
      compile (enclosed "[" "]" (parts.map (·.1))) =
        .ok ⟨enclosed "[" "]" (parts.map (·.1)),
          some (.array ⟨0, (enclosed "[" "]" (parts.map (·.1))).length⟩
            (placed Node.shift 1 parts) false)⟩) ∧
    (∀ fields : List (String × String × Node Span), fields ≠ [] →
      (∀ field ∈ fields, '"' ∉ field.1.toList ∧
        compile field.2.1 = .ok ⟨field.2.1, some field.2.2⟩) →
      compile (enclosed "\x7b" "\x7d" (fields.map fun field => fieldText field.1 field.2.1)) =
        .ok ⟨enclosed "\x7b" "\x7d" (fields.map fun field => fieldText field.1 field.2.1),
          some (.object
            ⟨0, (enclosed "\x7b" "\x7d"
              (fields.map fun field => fieldText field.1 field.2.1)).length⟩
            (placed Node.shiftPair 1 (fields.map fieldPart)) false)⟩) :=
  ⟨fun _ _ _ => compile_slice, fun _ => compile_brackets, fun _ => compile_braces⟩

/-- An array in an object is a pattern by itself, and two sources make an array and an object. -/
theorem compile_compositional_nulls :
    (∃ x, compile "[ null]" = .ok ⟨"[ null]", some x⟩ ∧
      x.shift 4 = .array ⟨4, 11⟩ [.null ⟨6, 10⟩] false) ∧
    compile "[null, true ]" = .ok ⟨"[null, true ]",
      some (.array ⟨0, 13⟩ [.null ⟨1, 5⟩, .boolean ⟨7, 11⟩ true] false)⟩ ∧
    compile "\x7b\"a\":null,\"b\": true \x7d" = .ok ⟨"\x7b\"a\":null,\"b\": true \x7d",
      some (.object ⟨0, 21⟩ [(.string ⟨1, 4⟩ "a", .null ⟨5, 9⟩),
        (.string ⟨10, 13⟩ "b", .boolean ⟨15, 19⟩ true)] false)⟩ := by
  let inner : Node Span := .array ⟨4, 11⟩ [.null ⟨6, 10⟩] false
  let root : Node Span := .object ⟨0, 12⟩ [(.string ⟨1, 2⟩ "a", inner)] false
  have hcompile : compile "\x7ba: [ null]\x7d" = .ok ⟨"\x7ba: [ null]\x7d", some root⟩ := by cbv
  have hpart : Parts.IsPart Node.entries inner root := .child List.mem_cons_self (.self _)
  have hnull : compile "null" = .ok ⟨"null", some (.null ⟨0, 4⟩)⟩ := by cbv
  have htrue : compile " true " = .ok ⟨" true ", some (.boolean ⟨1, 5⟩ true)⟩ := by cbv
  obtain ⟨hslice, harray, hobject⟩ := compile_compositional
  have hinner : String.ofList (inner.mark.slice "\x7ba: [ null]\x7d".toList) = "[ null]" := by cbv
  have hslice := hslice _ root inner hcompile hpart rfl
  rw [hinner] at hslice
  have hitems : placed Node.shift 1 [("null", .null ⟨0, 4⟩), (" true ", .boolean ⟨1, 5⟩ true)] =
      [.null ⟨1, 5⟩, .boolean ⟨7, 11⟩ true] := by cbv
  have harray := harray [("null", .null ⟨0, 4⟩), (" true ", .boolean ⟨1, 5⟩ true)] (by simp)
    (by simp [hnull, htrue, Node.isRest])
  have hbrackets : enclosed "[" "]" ["null", " true "] = "[null, true ]" := by cbv
  have hbracketsLength : "[null, true ]".length = 13 := by cbv
  simp only [List.map_cons, List.map_nil, hbrackets, hbracketsLength, hitems] at harray
  have hpairs : placed Node.shiftPair 1
      [fieldPart ("a", "null", .null ⟨0, 4⟩), fieldPart ("b", " true ", .boolean ⟨1, 5⟩ true)] =
        [(.string ⟨1, 4⟩ "a", .null ⟨5, 9⟩), (.string ⟨10, 13⟩ "b", .boolean ⟨15, 19⟩ true)] := by
    cbv
  have hobject := hobject [("a", "null", .null ⟨0, 4⟩), ("b", " true ", .boolean ⟨1, 5⟩ true)]
    (by simp) (by simp [hnull, htrue])
  have hbraces : enclosed "\x7b" "\x7d" [fieldText "a" "null", fieldText "b" " true "] =
      "\x7b\"a\":null,\"b\": true \x7d" := by cbv
  have hbracesLength : "\x7b\"a\":null,\"b\": true \x7d".length = 21 := by cbv
  simp only [List.map_cons, List.map_nil, hbraces, hbracesLength, hpairs] at hobject
  exact ⟨hslice, harray, hobject⟩

end Pattern

end ValuePattern
