import ValuePattern.Proofs.Decimal.Positional
import ValuePattern.Proofs.Grammar.Literal
import ValuePattern.Proofs.Text.Quoted
import ValuePattern.Proofs.Value.Parts
import ValuePattern.Value.Display
/-!
No two values without functions have the same text. The first character of a text tells strings,
arrays and objects from each other and from the words, which are made of plain characters and so end
at the comma or bracket behind them. Items and fields are then cut off one after another, each from
whatever stands behind it.
-/
namespace ValuePattern.Value

open Text

/-- A value with no function among its parts. -/
def WithoutFunctions (v : Value) : Prop := v.Everywhere fun part => part.function? = none

theorem WithoutFunctions.function?_eq {v : Value} (h : v.WithoutFunctions) : v.function? = none :=
  h v (.self v)

theorem withoutFunctions_array {items : List Value} :
    (array items).WithoutFunctions ↔ ∀ item ∈ items, item.WithoutFunctions :=
  everywhere_array.trans (and_iff_right rfl)

theorem withoutFunctions_leaf {v : Value} (h : v.children = []) :
    v.WithoutFunctions ↔ v.function? = none := everywhere_leaf h

theorem withoutFunctions_object {fields : List (String × Value)} :
    (object fields).WithoutFunctions ↔ ∀ field ∈ fields, field.2.WithoutFunctions :=
  everywhere_object.trans (and_iff_right rfl)

/-- The character that opens the text of a string, an array or an object; other texts are words. -/
def opening? : Value → Option Char
  | string _ => some '"'
  | array _ => some '['
  | object _ => some '{'
  | _ => none

theorem opening?_mem {v : Value} {c : Char} (h : v.opening? = some c) : c ∈ ['"', '[', '{'] := by
  cases v with
  | string | array | object =>
    obtain rfl := Option.some.inj h
    decide
  | _ => simp [opening?] at h

section Words

/-- The values that have a name for a text. -/
def named : List Value :=
  [missing, null, boolean true, boolean false, number .nan, number .infinity,
    number Double.infinity.negate]

theorem named_nodup : (named.map display).Nodup := by decide +kernel

theorem named_facts : ∀ v ∈ named, v.display.toList ≠ [] ∧
    v.display.toList.all isPlain = true ∧ Numeral.read? v.display.toList = none := by
  simp only [named, List.forall_mem_cons]
  decide +kernel

/-- A finite number is read back from its text. -/
theorem read?_display {x : Double} (hx : x.isInfinite = false) (hnan : x ≠ .nan) :
    Numeral.read? (number x).display.toList = some x := by
  cases x with
  | nan => exact absurd rfl hnan
  | number negative m =>
    have h := Numeral.read?_text hnan
    have hm : m.isInfinite = false := hx
    simpa [display, Double.text, hm] using h

variable {v w : Value} {r u : List Char}

/-- A word is a name or a number that is read back. -/
theorem word_cases (hv : v.function? = none) (hword : v.opening? = none) :
    v ∈ named ∨ ∃ x, v = number x ∧ Numeral.read? v.display.toList = some x := by
  cases v with
  | missing | null => simp [named]
  | boolean truth => cases truth <;> simp [named]
  | number x =>
    cases x with
    | nan => simp [named]
    | number negative m =>
      cases hm : m.isInfinite with
      | true =>
        obtain rfl := Magnitude.isInfinite_iff.mp hm
        cases negative <;> simp [named, Double.infinity, Double.negate]
      | false => exact .inr ⟨_, rfl, read?_display hm (by simp)⟩
  | string | array | object => simp [opening?] at hword
  | function => simp [function?] at hv

theorem isPlain_of_word (hv : v.function? = none) (hword : v.opening? = none) :
    v.display.toList ≠ [] ∧ ∀ c ∈ v.display.toList, isPlain c = true := by
  rcases word_cases hv hword with h | ⟨x, rfl, hread⟩
  · obtain ⟨hne, hplain, -⟩ := named_facts v h
    exact ⟨hne, List.all_eq_true.mp hplain⟩
  · have hliteral := Grammar.IsLiteral.number (s := ⟨0, 0⟩) hread
    exact ⟨hliteral.ne_nil, hliteral.isPlain⟩

theorem eq_of_word_display_eq (hv : v.function? = none) (hv' : v.opening? = none)
    (hw : w.function? = none) (hw' : w.opening? = none) (h : v.display = w.display) : v = w := by
  rcases word_cases hv hv' with hv | ⟨x, rfl, hx⟩ <;> rcases word_cases hw hw' with hw | ⟨y, rfl, hy⟩
  · exact List.inj_on_of_nodup_map named_nodup hv hw h
  · rw [← h, (named_facts v hv).2.2] at hy
    exact absurd hy (by simp)
  · rw [h, (named_facts w hw).2.2] at hx
    exact absurd hx (by simp)
  · rw [h, hy] at hx
    rw [Option.some.inj hx]

end Words

section Lists

variable {β : Type} {f : β → String} {Good : β → Prop} {closing : Char} {bs cs : List β}
variable {r u : List Char}

/-- What may stand behind an item: a comma or what it is in comes to its end. -/
def EndsItem (r : List Char) : Prop := ∀ c ∈ r.head?, c = ',' ∨ c = ']' ∨ c = '}'

/-- The text of an item is told apart from those of other good items, whatever stands behind the
two. -/
def ToldApart (f : β → String) (Good : β → Prop) (b : β) : Prop :=
  ∀ {c : β} {r u : List Char}, Good c → EndsItem r → EndsItem u →
    (f b).toList ++ r = (f c).toList ++ u → b = c ∧ r = u

/-- What stands behind the first of several items. -/
def behindFirst (f : β → String) (closing : Char) (r : List Char) : List β → List Char
  | [] => closing :: r
  | b :: bs => ',' :: ' ' :: ((f b).toList ++ behindFirst f closing r bs)

theorem intercalate_cons (b : β) (bs : List β) :
    (", ".intercalate ((b :: bs).map f)).toList ++ closing :: r =
      (f b).toList ++ behindFirst f closing r bs := by
  induction bs generalizing b with
  | nil => simp [behindFirst]
  | cons b' bs ih => simpa [behindFirst] using ih b'

theorem endsItem_behindFirst (hclosing : closing = ']' ∨ closing = '}') (bs : List β) :
    EndsItem (behindFirst f closing r bs) := by
  cases bs with
  | nil => simpa [behindFirst, EndsItem] using .inr hclosing
  | cons b bs => simp [behindFirst, EndsItem]

theorem eq_of_behindFirst_eq (hclosing : closing = ']' ∨ closing = '}')
    (hbs : ∀ b ∈ bs, ToldApart f Good b) (hcs : ∀ c ∈ cs, Good c)
    (h : behindFirst f closing r bs = behindFirst f closing u cs) : bs = cs ∧ r = u := by
  have hcomma : closing ≠ ',' := by rcases hclosing with rfl | rfl <;> decide
  induction bs generalizing cs with
  | nil =>
    cases cs with
    | nil => simpa [behindFirst] using h
    | cons c cs => simp [behindFirst, hcomma] at h
  | cons b bs ih =>
    cases cs with
    | nil => simp [behindFirst, hcomma.symm] at h
    | cons c cs =>
      simp only [behindFirst, List.cons.injEq, true_and] at h
      obtain ⟨htold, htolds⟩ := List.forall_mem_cons.mp hbs
      obtain ⟨hgood, hgoods⟩ := List.forall_mem_cons.mp hcs
      obtain ⟨rfl, htail⟩ := htold hgood (endsItem_behindFirst hclosing bs)
        (endsItem_behindFirst hclosing cs) h
      obtain ⟨rfl, hend⟩ := ih htolds hgoods htail
      exact ⟨rfl, hend⟩

/-- Items with commas between them are told apart together up to the closing character, if each of
them is and none begins with that character. -/
theorem eq_of_intercalate_eq (hclosing : closing = ']' ∨ closing = '}')
    (hstart : ∀ b, Good b → ∀ r u, (f b).toList ++ r ≠ closing :: u)
    (htold : ∀ b ∈ bs, ToldApart f Good b) (hbs : ∀ b ∈ bs, Good b) (hcs : ∀ c ∈ cs, Good c)
    (h : (", ".intercalate (bs.map f)).toList ++ closing :: r =
      (", ".intercalate (cs.map f)).toList ++ closing :: u) : bs = cs ∧ r = u := by
  cases bs with
  | nil =>
    cases cs with
    | nil => simpa using h
    | cons c cs =>
      rw [intercalate_cons] at h
      exact absurd h.symm (hstart c (hcs c List.mem_cons_self) _ _)
  | cons b bs =>
    cases cs with
    | nil =>
      rw [intercalate_cons] at h
      exact absurd h (hstart b (hbs b List.mem_cons_self) _ _)
    | cons c cs =>
      rw [intercalate_cons, intercalate_cons] at h
      obtain ⟨hb, htolds⟩ := List.forall_mem_cons.mp htold
      obtain ⟨hc, hgoods⟩ := List.forall_mem_cons.mp hcs
      obtain ⟨rfl, htail⟩ :=
        hb hc (endsItem_behindFirst hclosing bs) (endsItem_behindFirst hclosing cs) h
      obtain ⟨rfl, hend⟩ := eq_of_behindFirst_eq hclosing htolds hgoods htail
      exact ⟨rfl, hend⟩

end Lists

section Values

variable {v w : Value} {r u : List Char}

theorem displayItems_eq_map (items : List Value) : displayItems items = items.map display := by
  induction items with
  | nil => rfl
  | cons item items ih => rw [displayItems, ih, List.map_cons]

/-- The text of a field. -/
def displayField (field : String × Value) : String := quoted field.1 ++ ": " ++ field.2.display

theorem displayFields_eq_map (fields : List (String × Value)) :
    displayFields fields = fields.map displayField := by
  induction fields with
  | nil => rfl
  | cons field fields ih => rw [displayFields, ih, List.map_cons, displayField]

theorem array_text (items : List Value) (r : List Char) : (array items).display.toList ++ r =
    '[' :: ((", ".intercalate (items.map display)).toList ++ ']' :: r) := by
  simp [display, displayItems_eq_map]

theorem object_text (fields : List (String × Value)) (r : List Char) :
    (object fields).display.toList ++ r =
      '{' :: ((", ".intercalate (fields.map displayField)).toList ++ '}' :: r) := by
  simp [display, displayFields_eq_map]

theorem quoted_text (text : String) : ∃ t, (quoted text).toList = '"' :: t := by
  simp [quoted]

/-- The first character of a text opens it or is one of a word. -/
theorem exists_first (hv : v.function? = none) : ∃ c t, v.display.toList = c :: t ∧
    (v.opening? = some c ∨ v.opening? = none ∧ isPlain c = true) := by
  cases hopen : v.opening? with
  | none =>
    obtain ⟨hne, hplain⟩ := isPlain_of_word hv hopen
    obtain ⟨c, t, ht⟩ := List.exists_cons_of_ne_nil hne
    exact ⟨c, t, ht, .inr ⟨rfl, hplain c (by simp [ht])⟩⟩
  | some d =>
    cases v with
    | string text =>
      obtain ⟨t, ht⟩ := quoted_text text
      exact ⟨_, t, ht, .inl hopen.symm⟩
    | array items => exact ⟨_, _, by simpa using array_text items [], .inl hopen.symm⟩
    | object fields => exact ⟨_, _, by simpa using object_text fields [], .inl hopen.symm⟩
    | _ => simp [opening?] at hopen

theorem opening?_eq (hv : v.function? = none) (hw : w.function? = none)
    (h : v.display.toList ++ r = w.display.toList ++ u) : v.opening? = w.opening? := by
  have hopening : ∀ c ∈ ['"', '[', '{'], isPlain c = false := by simp [isPlain]
  have hplain {c : Char} {x : Value} (hx : x.opening? = some c) : isPlain c = false :=
    hopening c (opening?_mem hx)
  obtain ⟨c, t, ht, hc⟩ := exists_first hv
  obtain ⟨d, z, hz, hd⟩ := exists_first hw
  obtain rfl : c = d := by
    rw [ht, hz] at h
    exact (List.cons.inj h).1
  rcases hc with hc | ⟨hv, hc⟩ <;> rcases hd with hd | ⟨hw, hd⟩
  · rw [hc, hd]
  · exact absurd hd (by simp [hplain hc])
  · exact absurd hc (by simp [hplain hd])
  · rw [hv, hw]

/-- No text begins with a closing bracket. -/
theorem append_ne_cons {closing : Char} (hv : v.function? = none)
    (hclosing : closing = ']' ∨ closing = '}') (r u : List Char) :
    v.display.toList ++ r ≠ closing :: u := by
  obtain ⟨c, t, ht, hc⟩ := exists_first hv
  rw [ht, List.cons_append]
  intro h
  obtain rfl := (List.cons.inj h).1
  rcases hc with hc | ⟨-, hc⟩
  · have := opening?_mem hc
    rcases hclosing with rfl | rfl <;> revert this <;> decide
  · rcases hclosing with rfl | rfl <;> revert hc <;> decide

theorem isPlain_eq_false_of_endsItem (h : EndsItem r) : ∀ c ∈ r.head?, isPlain c = false := by
  intro c hc
  rcases h c hc with rfl | rfl | rfl <;> decide

/-- A word ends in front of the first character that is not plain. -/
theorem toldApart_word (hv : v.function? = none) (hword : v.opening? = none) :
    ToldApart display WithoutFunctions v := by
  intro w r u hw hr hu h
  have hwself : w.function? = none := hw.function?_eq
  have hword' : w.opening? = none := by rw [← opening?_eq hv hwself h, hword]
  obtain ⟨htext, hend⟩ := eq_of_append_eq_append (isPlain_of_word hv hword).2
    (isPlain_of_word hwself hword').2 (isPlain_eq_false_of_endsItem hr)
    (isPlain_eq_false_of_endsItem hu) h
  exact ⟨eq_of_word_display_eq hv hword hwself hword' (String.toList_inj.mp htext), hend⟩

/-- A field is told apart if its value is. -/
theorem toldApart_field {field : String × Value}
    (hvalue : ToldApart display WithoutFunctions field.2) :
    ToldApart displayField (fun field => field.2.WithoutFunctions) field := by
  intro other r u hother hr hu h
  simp only [displayField, String.toList_append, List.append_assoc] at h
  obtain ⟨hname, htail⟩ := eq_of_quoted_append_eq h
  obtain ⟨hcontent, hend⟩ := hvalue hother hr hu (List.append_cancel_left htail)
  exact ⟨Prod.ext hname hcontent, hend⟩

/-- Every value without functions is told apart from all others by its text. -/
theorem toldApart (v : Value) (hv : v.WithoutFunctions) : ToldApart display WithoutFunctions v := by
  induction v using Value.induction with
  | missing | null | boolean | number => exact toldApart_word rfl rfl
  | function => exact absurd hv.function?_eq (by simp [function?])
  | string text =>
    intro w r u hw _ _ h
    have hopen := opening?_eq rfl hw.function?_eq h
    cases w with
    | string text' =>
      obtain ⟨rfl, hend⟩ := eq_of_quoted_append_eq h
      exact ⟨rfl, hend⟩
    | _ => simp [opening?] at hopen
  | array items ih =>
    intro w r u hw _ _ h
    have hopen := opening?_eq rfl hw.function?_eq h
    cases w with
    | array items' =>
      rw [array_text, array_text] at h
      have hitems := withoutFunctions_array.mp hv
      obtain ⟨rfl, hend⟩ := eq_of_intercalate_eq (.inl rfl)
        (fun item hitem => append_ne_cons hitem.function?_eq (.inl rfl))
        (fun item hmem => ih item hmem (hitems item hmem))
        hitems (withoutFunctions_array.mp hw) (List.cons.inj h).2
      exact ⟨rfl, hend⟩
    | _ => simp [opening?] at hopen
  | object fields ih =>
    intro w r u hw _ _ h
    have hopen := opening?_eq rfl hw.function?_eq h
    cases w with
    | object fields' =>
      rw [object_text, object_text] at h
      have hfields := withoutFunctions_object.mp hv
      have hstart : ∀ field : String × Value, field.2.WithoutFunctions → ∀ r u,
          (displayField field).toList ++ r ≠ '}' :: u := by
        intro field _ r u
        obtain ⟨t, ht⟩ := quoted_text field.1
        simp [displayField, ht]
      obtain ⟨rfl, hend⟩ := eq_of_intercalate_eq (.inr rfl) hstart
        (fun field hmem => toldApart_field (ih field hmem (hfields field hmem)))
        hfields (withoutFunctions_object.mp hw) (List.cons.inj h).2
      exact ⟨rfl, hend⟩
    | _ => simp [opening?] at hopen

/-- The display of values without functions is unambiguous: it gives away the kinds, the strings and
names, the order of items and fields and every number, the sign of a zero included. -/
theorem display_eq_iff (v w : Value) (hv : v.WithoutFunctions) (hw : w.WithoutFunctions) :
    v.display = w.display ↔ v = w := by
  constructor
  · intro h
    have hends : EndsItem [] := by simp [EndsItem]
    exact (toldApart v hv hw hends hends (by rw [h])).1
  · rintro rfl
    rfl

/-- One string that looks like the end of an item and the beginning of the next differs from two
strings, and the two zeros differ. -/
theorem display_ne_pairs :
    (array [string "a\", \"b"]).display ≠ (array [string "a", string "b"]).display ∧
      (array [number (.number false .zero)]).display ≠
        (array [number (.number true .zero)]).display := by
  have hstrings (texts : List String) : (array (texts.map string)).WithoutFunctions := by
    rw [withoutFunctions_array, List.forall_mem_map]
    exact fun text _ => (withoutFunctions_leaf rfl).mpr rfl
  have hnumber (x : Double) : (array [number x]).WithoutFunctions := by
    rw [withoutFunctions_array, List.forall_mem_singleton]
    exact (withoutFunctions_leaf rfl).mpr rfl
  constructor
  · exact mt (display_eq_iff _ _ (hstrings ["a\", \"b"]) (hstrings ["a", "b"])).mp (by simp)
  · exact mt (display_eq_iff _ _ (hnumber _) (hnumber _)).mp (by simp)

end Values

end ValuePattern.Value
