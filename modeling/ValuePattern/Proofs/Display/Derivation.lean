import ValuePattern.Proofs.Decimal.Positional
import ValuePattern.Proofs.Display.Printable
import ValuePattern.Proofs.Grammar.Compile
/-!
The normal form of a printable tree derives that tree, wherever it stands. Entries are printed with a
comma and one blank between them, which is a way to write the entries of a body.
-/
namespace ValuePattern

namespace Node

variable {α β γ : Type}

theorem listed_singleton (item : String) : listed [item] false = item := by
  simp [listed]

/-- Entries in front of others, or of a rest marker, have a comma and a blank behind them. -/
theorem listed_cons {items : List String} {isOpen : Bool} (item : String)
    (h : items ≠ [] ∨ isOpen = true) :
    listed (item :: items) isOpen = item ++ ", " ++ listed items isOpen := by
  cases items with
  | nil =>
    obtain rfl : isOpen = true := by simpa using h
    simp [listed]
  | cons item' items => simp [listed]

theorem exists_listed_cons (item : String) (items : List String) (isOpen : Bool) :
    ∃ tail, listed (item :: items) isOpen = item ++ tail := by
  by_cases h : items ≠ [] ∨ isOpen = true
  · exact ⟨", " ++ listed items isOpen, by rw [listed_cons item h, String.append_assoc]⟩
  · obtain ⟨rfl, rfl⟩ : items = [] ∧ isOpen = false := by simpa using h
    exact ⟨"", by rw [listed_singleton, String.append_empty]⟩

theorem quote_isQuoted {text : String} (h : Text.Quotable text) :
    Grammar.IsQuoted (quote text).toList text := by
  have quoted (q : Char) (hq : q = '"' ∨ q = '\'') (hi : q ∉ text.toList) :
      Grammar.IsQuoted (q :: (text.toList ++ [q])) text := by
    simpa using Grammar.IsQuoted.intro hq hi
  by_cases hdouble : '"' ∈ text.toList
  · have hsingle : '\'' ∉ text.toList := h.resolve_left (not_not_intro hdouble)
    simpa [quote, hdouble] using quoted '\'' (.inr rfl) hsingle
  · simpa [quote, hdouble] using quoted '"' (.inl rfl) hdouble

end Node

namespace Grammar

open Node Text

section Entries

variable {α β γ : Type} {E : List Char → Nat → γ → Prop} {print : β → String} {f : γ → α} {g : β → α}
variable {isOpen : Bool}

/-- Printed entries derive, if each of them does wherever it stands; `f` and `g` say how the entries
that are derived agree with those that were printed. -/
theorem entries_listed (bs : List β)
    (h : ∀ b ∈ bs, ∀ n, ∃ a, E (print b).toList n a ∧ f a = g b) (hne : bs ≠ [] ∨ isOpen = true)
    (n : Nat) :
    ∃ as, Entries E (listed (bs.map print) isOpen).toList n as isOpen ∧ as.map f = bs.map g := by
  induction bs generalizing n with
  | nil =>
    obtain rfl : isOpen = true := by simpa using hne
    exact ⟨[], .rest, rfl⟩
  | cons b bs ih =>
    obtain ⟨hb, hbs⟩ := List.forall_mem_cons.mp h
    obtain ⟨a, ha, hab⟩ := hb n
    by_cases hlast : bs ≠ [] ∨ isOpen = true
    · obtain ⟨as, has, hmap⟩ := ih hbs hlast (n + ((print b).toList ++ [] ++ ',' :: [' ']).length)
      refine ⟨a :: as, ?_, by rw [List.map_cons, List.map_cons, hab, hmap]⟩
      have hlist : bs.map print ≠ [] ∨ isOpen = true := hlast.imp_left (mt List.map_eq_nil_iff.mp)
      rw [List.map_cons, listed_cons _ hlist]
      simpa using Entries.cons ha blanks_nil (blanks_cons.mpr ⟨by decide, blanks_nil⟩) has
    · obtain ⟨rfl, hopen⟩ : bs = [] ∧ isOpen = false := by simpa using hlast
      rw [hopen, List.map_singleton, listed_singleton]
      exact ⟨[a], .last ha, by rw [List.map_singleton, List.map_singleton, hab]⟩

theorem body_listed (closing : Char) (isOpen : Bool) (bs : List β)
    (h : ∀ b ∈ bs, ∀ n, ∃ a, E (print b).toList n a ∧ f a = g b) (n : Nat) :
    ∃ as, Body closing E ((listed (bs.map print) isOpen).toList ++ [closing]) n as isOpen ∧
      as.map f = bs.map g := by
  by_cases hne : bs ≠ [] ∨ isOpen = true
  · obtain ⟨as, has, hmap⟩ := entries_listed bs h hne n
    exact ⟨as, by simpa using Body.entries blanks_nil has blanks_nil, hmap⟩
  · obtain ⟨rfl, rfl⟩ : bs = [] ∧ isOpen = false := by simpa using hne
    exact ⟨[], by simpa [listed] using Body.empty blanks_nil, rfl⟩

end Entries

/-- The normal form of a printable tree derives the tree, marks aside. -/
theorem isValue_display {α : Type} (n : Node α) (h : Everywhere Printable n) (k : Nat) :
    ∃ x, IsValue n.display.toList k x ∧ x.erase = n.erase := by
  induction n using Node.induction generalizing k with
  | array mark elements isOpen ih =>
    obtain ⟨hself, hparts⟩ := everywhere_array.mp h
    obtain ⟨xs, hbody, hmap⟩ :=
      body_listed ']' isOpen elements (fun x hx => ih x hx (hparts x hx)) (k + 1)
    have hrest : ∀ x ∈ xs, x.isRest = false := by
      intro x hx
      have hmem : x.erase ∈ elements.map erase := by
        rw [← hmap]
        exact List.mem_map_of_mem hx
      obtain ⟨y, hy, heq⟩ := List.mem_map.mp hmem
      rw [← isRest_erase x, ← heq, isRest_erase]
      exact hself y hy
    have htext : (array mark elements isOpen).display.toList =
        '[' :: ((listed (elements.map display) isOpen).toList ++ [']']) := by
      simp [display, displayElements_eq_map]
    rw [htext]
    exact ⟨_, .array hbody hrest, by rw [erase_array, erase_array, hmap]⟩
  | object mark pairs isOpen ih =>
    obtain ⟨hself, hparts⟩ := everywhere_object.mp h
    have hfields : ∀ p ∈ pairs, ∀ n, ∃ a : Node Span × Node Span,
        IsField IsValue (display p.1 ++ ": " ++ display p.2).toList n a ∧
          (a.1.erase, a.2.erase) = (p.1.erase, p.2.erase) := by
      intro p hp n
      obtain ⟨mark, name, hname⟩ := hself p hp
      have hquoted : IsQuoted (display p.1).toList name := by
        have hquotable := (hparts p hp).1.self
        rw [hname] at hquotable ⊢
        exact quote_isQuoted hquotable
      obtain ⟨x, hx, heq⟩ := (ih p hp).2 (hparts p hp).2
        (n + ((display p.1).toList ++ [] ++ ':' :: [' ']).length)
      have htext : (display p.1 ++ ": " ++ display p.2).toList =
          (display p.1).toList ++ [] ++ ':' :: [' '] ++ (display p.2).toList := by simp
      have hspace : Blanks [' '] := blanks_cons.mpr ⟨by decide, blanks_nil⟩
      rw [htext]
      refine ⟨_, .intro (.quoted hquoted) blanks_nil (fun _ => rfl) hspace (.value hx), ?_⟩
      rw [heq, hname]
      rfl
    obtain ⟨ps, hbody, hmap⟩ := body_listed '}' isOpen pairs hfields (k + 1)
    have htext : (object mark pairs isOpen).display.toList = '{' ::
        ((listed (pairs.map fun p => display p.1 ++ ": " ++ display p.2) isOpen).toList ++ ['}']) := by
      simp [display, displayPairs_eq_map]
    rw [htext]
    exact ⟨_, .object hbody, by rw [erase_object, erase_object, hmap]⟩
  | number mark x =>
    have hx : x ≠ .nan := h.self
    exact ⟨_, .literal (.number (Numeral.read?_text hx)), rfl⟩
  | string mark text => exact ⟨_, .string (quote_isQuoted h.self), rfl⟩
  | boolean mark truth =>
    cases truth with
    | true => exact ⟨_, .literal .trueWord, rfl⟩
    | false => exact ⟨_, .literal .falseWord, rfl⟩
  | missing mark => exact ⟨_, .literal .missingWord, rfl⟩
  | null mark => exact ⟨_, .literal .nullWord, rfl⟩
  | rest mark => exact ⟨_, .rest, rfl⟩

end Grammar

end ValuePattern
