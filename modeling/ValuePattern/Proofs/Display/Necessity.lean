import ValuePattern.Proofs.Display.Derivation
/-!
Only printable trees are read back from their normal form. A string with both quotes in it is printed
between single ones and read up to the first of them, so it comes back shorter; and whatever is read
before it was printed from a printable tree and is passed exactly, so nothing further ahead can make
up for it.
-/
namespace ValuePattern

open Text Place Grammar

namespace Node

variable {α : Type}

theorem startsSolid_display (n : Node α) (r : List Char) : StartsSolid (n.display.toList ++ r) := by
  cases n with
  | array mark elements isOpen => simp [display, isBlank]
  | object mark pairs isOpen => simp [display, isBlank]
  | number mark x =>
    by_cases hx : x = .nan
    · simp [display, hx, Double.text, isBlank]
    · have hliteral := IsLiteral.number (s := ⟨0, 0⟩) (Numeral.read?_text hx)
      cases htext : (x.text "Infinity").toList with
      | nil => exact absurd htext hliteral.ne_nil
      | cons c t =>
        have hplain := hliteral.isPlain c (by simp [htext])
        simp [display, htext, isBlank_of_isPlain hplain]
  | string mark text =>
    by_cases hdouble : '"' ∈ text.toList <;> simp [display, quote, hdouble, isBlank]
  | boolean mark truth => cases truth <;> simp [display, isBlank]
  | _ => simp [display, isBlank]

theorem startsSolid_listed {items : List String} (isOpen : Bool) {closing : Char} (r : List Char)
    (hitems : ∀ item ∈ items, ∀ u, StartsSolid (item.toList ++ u))
    (hclosing : isBlank closing = false) :
    StartsSolid ((listed items isOpen).toList ++ closing :: r) := by
  cases items with
  | nil =>
    cases isOpen with
    | false => simpa [listed] using hclosing
    | true => simp [listed, isBlank]
  | cons item items =>
    obtain ⟨tail, htail⟩ := exists_listed_cons item items isOpen
    rw [htail, String.toList_append, List.append_assoc]
    exact hitems item List.mem_cons_self _

end Node

namespace Grammar

open Node

section Entries

variable {β γ δ : Type} {closing : Char} {otherwise : Cause} {print : β → String}
variable {Read : Place → List γ → Bool → Place → Prop} {Step : Place → γ → Place → Prop}
variable {f : γ → δ} {g : β → δ} {Good : β → Prop}

/-- Entries that are read back from their listing are good, if every entry is that is read back from
in front of a comma or the closing character, and if good entries are passed exactly. -/
theorem forall_of_listed (hclosing : isBlank closing = false) (hcomma : ',' ≠ closing)
    (hread : ∀ {p a as isOpen q}, Read p (a :: as) isOpen q → ∃ v, Step p a v ∧ (as ≠ [] →
      ∃ r, (v.delimiter closing otherwise none).outcome = (.ok false, r) ∧ Read r as isOpen q))
    (bs : List β) (hsolid : ∀ b ∈ bs, ∀ r, StartsSolid ((print b).toList ++ r))
    (hstep : ∀ b ∈ bs, ∀ {p a v k c r}, c = ',' ∨ c = closing →
      p.skipSpace = ⟨k, (print b).toList ++ c :: r⟩ → Step p a v → f a = g b →
      Good b ∧ v.skipSpace = Place.skipSpace ⟨k + (print b).toList.length, c :: r⟩)
    {p q : Place} {as : List γ} {isOpen isOpen' : Bool} {k : Nat} {r : List Char}
    (hp : p.skipSpace = ⟨k, (listed (bs.map print) isOpen).toList ++ closing :: r⟩)
    (h : Read p as isOpen' q) (hmap : as.map f = bs.map g) : ∀ b ∈ bs, Good b := by
  induction bs generalizing p as k with
  | nil => simp
  | cons b bs ih =>
    cases as with
    | nil => simp at hmap
    | cons a as =>
      obtain ⟨hab, hmap⟩ := List.cons.inj hmap
      obtain ⟨v, hv, hnext⟩ := hread h
      by_cases hlast : bs ≠ [] ∨ isOpen = true
      · have hlist : bs.map print ≠ [] ∨ isOpen = true := hlast.imp_left (mt List.map_eq_nil_iff.mp)
        have htext : (listed ((b :: bs).map print) isOpen).toList ++ closing :: r =
            (print b).toList ++
              ',' :: ([' '] ++ ((listed (bs.map print) isOpen).toList ++ closing :: r)) := by
          rw [List.map_cons, listed_cons _ hlist]
          simp
        rw [htext] at hp
        obtain ⟨hgood, hskip⟩ := hstep b List.mem_cons_self (.inl rfl) hp hv hab
        refine List.forall_mem_cons.mpr ⟨hgood, ?_⟩
        cases bs with
        | nil => simp
        | cons b' bs =>
          have hne : as ≠ [] := by
            rintro rfl
            simp at hmap
          obtain ⟨u, hd, hu⟩ := hnext hne
          rw [delimiter_comma (w := []) hskip blanks_nil hcomma] at hd
          obtain ⟨-, rfl⟩ := Prod.mk.inj hd
          have hsolid' : ∀ x ∈ b' :: bs, ∀ u, StartsSolid ((print x).toList ++ u) :=
            fun x hx => hsolid x (List.mem_cons_of_mem _ hx)
          have hstart :=
            startsSolid_listed isOpen r (List.forall_mem_map.mpr hsolid') hclosing
          exact ih hsolid' (fun x hx => hstep x (List.mem_cons_of_mem _ hx))
            (skipSpace_append (by simp [isBlank]) hstart) hu hmap
      · obtain ⟨rfl, rfl⟩ : bs = [] ∧ isOpen = false := by simpa using hlast
        rw [List.map_singleton, listed_singleton] at hp
        obtain ⟨hgood, -⟩ := hstep b List.mem_cons_self (.inr rfl) hp hv hab
        simpa using hgood

end Entries

section Readings

variable {α : Type} {p q v : Place} {s : Stop} {k : Nat} {r : List Char} {x : Node Span}

/-- The quotes in which a text is printed. -/
theorem exists_quote (text : String) : ∃ c, (c = '"' ∨ c = '\'') ∧
    (quote text).toList = c :: (text.toList ++ [c]) ∧ (c ∈ text.toList ↔ ¬Quotable text) := by
  by_cases hdouble : '"' ∈ text.toList
  · exact ⟨'\'', .inr rfl, by simp [quote, hdouble], by simp [Quotable, hdouble]⟩
  · exact ⟨'"', .inl rfl, by simp [quote, hdouble], by simp [Quotable, hdouble]⟩

/-- A string with both quotes in it comes back shorter. -/
theorem quotable_of_string {text : String} (hp : p.skipSpace = ⟨k, (quote text).toList ++ r⟩)
    (ho : p.string.outcome = (.ok x, q)) (hx : x.erase = .string () text) : Quotable text := by
  by_contra hquotable
  obtain ⟨c, hc, htext, hmem⟩ := exists_quote text
  obtain ⟨inside, behind, hsplit, hinside⟩ := List.eq_append_cons_of_mem (hmem.mpr hquotable)
  have hp' : p.skipSpace = ⟨k, c :: (inside ++ c :: (behind ++ [c] ++ r))⟩ := by
    rw [hp, htext, hsplit]
    simp
  rw [string_outcome hp' hc hinside] at ho
  obtain ⟨hstring, -⟩ := Prod.mk.inj ho
  rw [← Except.ok.inj hstring] at hx
  have hshort : String.ofList inside = text := by simpa [erase, map] using hx
  have hlength := congrArg List.length hsplit
  rw [← hshort, String.toList_ofList, List.length_append, List.length_cons] at hlength
  omega

theorem ne_nan_of_value {mark : Span} {y : Double}
    (ho : (p.value s).outcome = (.ok (.number mark y), q)) : y ≠ .nan := by
  obtain ⟨t, -, htaken⟩ := value_sound p ho
  cases htaken with
  | value h _ =>
    cases h with
    | literal hl => exact hl.printable.2.1

/-- A value that is read from the normal form of a printable tree is passed exactly. -/
theorem skipSpace_of_display {n : Node α} (hn : Everywhere Printable n) (hs : s.Separates)
    (hr : s.EndsBefore r) (hp : p.skipSpace = ⟨k, n.display.toList ++ r⟩)
    (ho : (p.value s).outcome = (.ok x, v)) :
    v.skipSpace = Place.skipSpace ⟨k + n.display.toList.length, r⟩ := by
  obtain ⟨y, hy, -⟩ := isValue_display n hn k
  obtain ⟨u, hu, hskip⟩ := hy.isRead hs hr hp
  obtain ⟨-, rfl⟩ := Prod.mk.inj (ho.symm.trans hu)
  exact hskip

/-- The tree can be printed if it is read back from its normal form, whatever stands behind. -/
def PrintableIfRead (n : Node α) : Prop :=
  ∀ {s : Stop} {p q : Place} {k : Nat} {r : List Char} {x : Node Span}, s.Separates →
    p.skipSpace = ⟨k, n.display.toList ++ r⟩ → (p.value s).outcome = (.ok x, q) →
    x.erase = n.erase → Everywhere Printable n

theorem printable_of_elementStep {n : Node α} {c : Char} (hn : PrintableIfRead n)
    (hc : c = ',' ∨ c = ']') (hp : p.skipSpace = ⟨k, n.display.toList ++ c :: r⟩)
    (h : ElementStep p x v) (hx : x.erase = n.erase) :
    (n.isRest = false ∧ Everywhere Printable n) ∧
      v.skipSpace = Place.skipSpace ⟨k + n.display.toList.length, c :: r⟩ := by
  have hprintable := hn Stop.separates_element hp h.value hx
  have hend : Stop.element.EndsBefore (c :: r) := by
    rcases hc with rfl | rfl <;> exact Stop.endsBefore_append blanks_nil (by decide) (by decide)
  refine ⟨⟨?_, hprintable⟩, ?_⟩
  · rw [← isRest_erase, ← hx, isRest_erase]
    exact h.isRest
  · exact skipSpace_of_display hprintable Stop.separates_element hend hp h.value

theorem printable_of_fieldStep {key value : Node α} {key' : Node Span} {c : Char}
    (hvalue : PrintableIfRead value) (hc : c = ',' ∨ c = '}')
    (hp : p.skipSpace = ⟨k, (key.display ++ ": " ++ value.display).toList ++ c :: r⟩)
    (h : FieldStep p key' x v) (hkey : key'.erase = key.erase) (hx : x.erase = value.erase) :
    ((∃ mark name, key = .string mark name) ∧ Everywhere Printable key ∧
      Everywhere Printable value) ∧
      v.skipSpace = Place.skipSpace
        ⟨k + (key.display ++ ": " ++ value.display).toList.length, c :: r⟩ := by
  cases h with
  | @intro n d t w u _ hd _ hk hrest hcolon hcontent hbare =>
    have hp' : p.skipSpace = ⟨k, key.display.toList ++
        ([] ++ ':' :: ([' '] ++ (value.display.toList ++ c :: r)))⟩ := by
      rw [hp]
      simp
    have hkstring : ∃ mark name, key = .string mark name := by
      obtain ⟨z, -, hz | ⟨-, rfl⟩⟩ := key_sound ((skipSpace_skipSpace p).trans hd) hk
      · obtain ⟨mark', name', rfl⟩ := hz.eq_string
        cases key <;> simp_all [erase, map]
      · simp [isRest] at hrest
    obtain ⟨mark, name, rfl⟩ := hkstring
    have hquotable : Quotable name := by
      obtain ⟨e, he, htext, -⟩ := exists_quote name
      have hstart : p.skipSpace = ⟨k, e :: (name.toList ++ [e] ++
          ([] ++ ':' :: ([' '] ++ (value.display.toList ++ c :: r))))⟩ := by
        rw [hp', display, htext, List.cons_append]
      have hstring := hk
      rw [key_outcome ((skipSpace_skipSpace p).trans hstart), if_pos he] at hstring
      exact quotable_of_string ((skipSpace_skipSpace p).trans hp') hstring hkey
    have hexact := key_complete (.quoted (quote_isQuoted hquotable)) blanks_nil (fun _ => rfl)
      ((skipSpace_skipSpace p).trans hp')
    obtain ⟨-, rfl⟩ := Prod.mk.inj (hk.symm.trans hexact)
    obtain ⟨-, rfl⟩ := Prod.mk.inj (hcolon.symm.trans (colon_complete blanks_nil))
    have hu := skipSpace_append (n := k + (quote name).toList.length + 0 + 1) (w := [' '])
      (by simp [isBlank]) (startsSolid_display value (c :: r))
    have hend : Stop.fieldValue.EndsBefore (c :: r) := by
      rcases hc with rfl | rfl <;> exact Stop.endsBefore_append blanks_nil (by decide) (by decide)
    have hprintable := hvalue Stop.separates_fieldValue hu hcontent hx
    refine ⟨⟨⟨mark, name, rfl⟩, (everywhere_leaf rfl).mpr hquotable, hprintable⟩, ?_⟩
    rw [skipSpace_of_display hprintable Stop.separates_fieldValue hend hu hcontent]
    simp [display, Nat.add_assoc, Nat.add_comm 2]

theorem printable_of_items {elements : List (Node α)} {isOpen isOpen' : Bool}
    {xs : List (Node Span)} (hn : ∀ x ∈ elements, PrintableIfRead x)
    (h : ItemsStep ⟨k, (listed (elements.map display) isOpen).toList ++ ']' :: r⟩ xs isOpen' q)
    (hmap : xs.map erase = elements.map erase) :
    ∀ x ∈ elements, x.isRest = false ∧ Everywhere Printable x := by
  have hread {p : Place} {x : Node Span} {xs : List (Node Span)} {isOpen : Bool} {q : Place}
      (h : ItemsStep p (x :: xs) isOpen q) : ∃ v, ElementStep p x v ∧ (xs ≠ [] →
        ∃ r, (v.delimiter ']' .unterminatedElement none).outcome = (.ok false, r) ∧
          ItemsStep r xs isOpen q) := by
    cases h with
    | last hx _ => exact ⟨_, hx, fun hne => absurd rfl hne⟩
    | next hx hd hr => exact ⟨_, hx, fun _ => ⟨_, hd, items_eq_ok_iff.mp hr⟩⟩
  have hsolid : ∀ x ∈ elements, ∀ u, StartsSolid (x.display.toList ++ u) :=
    fun x _ => startsSolid_display x
  have hstart := startsSolid_listed isOpen r (List.forall_mem_map.mpr hsolid)
    (show isBlank ']' = false by decide)
  exact forall_of_listed (by decide) (by decide) hread elements hsolid
    (fun x hx _ _ _ _ _ _ hc hp h heq => printable_of_elementStep (hn x hx) hc hp h heq)
    (skipSpace_solid hstart) h hmap

theorem printable_of_fields {pairs : List (Node α × Node α)} {isOpen isOpen' : Bool}
    {ps : List (Node Span × Node Span)} (hn : ∀ p ∈ pairs, PrintableIfRead p.2)
    (h : FieldsStep ⟨k, (listed (pairs.map fun p => p.1.display ++ ": " ++ p.2.display)
      isOpen).toList ++ '}' :: r⟩ ps isOpen' q)
    (hmap : (ps.map fun p => (p.1.erase, p.2.erase)) = pairs.map fun p => (p.1.erase, p.2.erase)) :
    ∀ p ∈ pairs, (∃ mark name, p.1 = .string mark name) ∧ Everywhere Printable p.1 ∧
      Everywhere Printable p.2 := by
  have hread {p : Place} {a : Node Span × Node Span} {ps : List (Node Span × Node Span)}
      {isOpen : Bool} {q : Place} (h : FieldsStep p (a :: ps) isOpen q) :
      ∃ v, FieldStep p a.1 a.2 v ∧ (ps ≠ [] →
        ∃ r, (v.delimiter '}' .unterminatedField none).outcome = (.ok false, r) ∧
          FieldsStep r ps isOpen q) := by
    cases h with
    | last hx _ => exact ⟨_, hx, fun hne => absurd rfl hne⟩
    | next hx hd hr => exact ⟨_, hx, fun _ => ⟨_, hd, fields_eq_ok_iff.mp hr⟩⟩
  have hsolid : ∀ p ∈ pairs, ∀ u,
      StartsSolid ((p.1.display ++ ": " ++ p.2.display).toList ++ u) := by
    intro p _ u
    rw [String.append_assoc, String.toList_append, List.append_assoc]
    exact startsSolid_display p.1 _
  have hstart := startsSolid_listed isOpen r (List.forall_mem_map.mpr hsolid)
    (show isBlank '}' = false by decide)
  refine forall_of_listed (by decide) (by decide) hread pairs hsolid ?_ (skipSpace_solid hstart) h
    hmap
  intro p hp _ a v k c r hc hplace hstep heq
  obtain ⟨hkey, hvalue⟩ := Prod.mk.inj heq
  exact printable_of_fieldStep (hn p hp) hc hplace hstep hkey hvalue

/-- Only printable trees are read back from the front of what is ahead. -/
theorem printable_of_value (n : Node α) : PrintableIfRead n := by
  intro s p q k r x hs hp ho hx
  induction n using Node.induction generalizing s p q k r x with
  | array mark elements isOpen ih =>
    have hp' : p.skipSpace =
        ⟨k, '[' :: ((listed (elements.map display) isOpen).toList ++ ']' :: r)⟩ := by
      rw [hp, display, displayElements_eq_map]
      simp
    have hopen : s.holds '[' = false := hs.holds_opening (by decide)
    rw [value_outcome hp', if_neg (by simp [hopen]), if_neg (by decide), if_pos rfl] at ho
    obtain ⟨⟨xs, isOpen'⟩, hitems, rfl⟩ := Reading.map_outcome_eq_ok.mp ho
    rw [erase_array, erase_array] at hx
    obtain ⟨-, hmap, -⟩ := Node.array.inj hx
    have hgood := printable_of_items ih (items_eq_ok_iff.mp hitems) hmap
    rw [everywhere_array]
    exact ⟨fun x hx => (hgood x hx).1, fun x hx => (hgood x hx).2⟩
  | object mark pairs isOpen ih =>
    have hp' : p.skipSpace = ⟨k, '{' :: ((listed (pairs.map fun p =>
        p.1.display ++ ": " ++ p.2.display) isOpen).toList ++ '}' :: r)⟩ := by
      rw [hp, display, displayPairs_eq_map]
      simp
    have hopen : s.holds '{' = false := hs.holds_opening (by decide)
    rw [value_outcome hp', if_neg (by simp [hopen]), if_neg (by decide), if_neg (by decide),
      if_pos rfl] at ho
    obtain ⟨⟨ps, isOpen'⟩, hfields, rfl⟩ := Reading.map_outcome_eq_ok.mp ho
    rw [erase_object, erase_object] at hx
    obtain ⟨-, hmap, -⟩ := Node.object.inj hx
    have hgood := printable_of_fields (fun p hp => (ih p hp).2) (fields_eq_ok_iff.mp hfields) hmap
    rw [everywhere_object]
    exact ⟨fun p hp => (hgood p hp).1, fun p hp => (hgood p hp).2⟩
  | number mark y =>
    rw [everywhere_leaf rfl]
    cases x with
    | number mark' y' =>
      obtain rfl : y' = y := by simpa [erase, map] using hx
      exact ne_nan_of_value ho
    | _ => simp [erase, map] at hx
  | string mark text =>
    rw [everywhere_leaf rfl]
    obtain ⟨c, hc, htext, -⟩ := exists_quote text
    have hholds : s.holds c = false := by
      rcases hc with rfl | rfl <;> exact hs.holds_opening (by decide)
    have hp' : p.skipSpace = ⟨k, c :: (text.toList ++ [c] ++ r)⟩ := by
      rw [hp, display, htext, List.cons_append]
    rw [value_outcome hp', if_neg (by simp [hholds]), if_pos hc] at ho
    exact quotable_of_string hp ho hx
  | _ => exact (everywhere_leaf rfl).mpr trivial

end Readings

end Grammar

end ValuePattern
