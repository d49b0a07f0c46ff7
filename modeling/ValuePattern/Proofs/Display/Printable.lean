import ValuePattern.Proofs.Grammar.Literal
import ValuePattern.Proofs.Node.Marks
/-!
The trees whose normal form says what they are. Strings have no escapes, so one that holds both
quotes cannot be written; NaN has no literal; a rest marker among the elements of an array would be
taken for the one that makes the array open; and a key can only be written as a string. Reading makes
none of these but a bare key with both quotes in it.
-/
namespace ValuePattern

/-- A text that lacks one of the two quotes. -/
def Text.Quotable (text : String) : Prop := '"' ∉ text.toList ∨ '\'' ∉ text.toList

namespace Node

open Text

variable {α : Type}

/-- What a node must be like for its normal form to say what it is, its entries aside. -/
def Printable : Node α → Prop
  | array _ elements _ => ∀ x ∈ elements, x.isRest = false
  | object _ pairs _ => ∀ p ∈ pairs, ∃ mark name, p.1 = string mark name
  | number _ x => x ≠ .nan
  | string _ text => Quotable text
  | _ => True

/-- The names under which an object has its fields can be put in quotes. -/
def QuotableKeys : Node α → Prop
  | object _ pairs _ => ∀ p ∈ pairs, Quotable p.1.keyName
  | _ => True

end Node

namespace Grammar

open Node

variable {t : List Char} {n : Nat}

theorem IsQuoted.quotable {text : String} (h : IsQuoted t text) : Text.Quotable text := by
  cases h with
  | intro hq hi => rcases hq with rfl | rfl <;> simp [Text.Quotable, hi]

theorem IsLiteral.printable {s : Span} {x : Node Span} (h : IsLiteral t s x) :
    x.children = [] ∧ x.Printable ∧ x.QuotableKeys := by
  cases h with
  | number hx => exact ⟨rfl, Numeral.ne_nan_of_read? hx, trivial⟩
  | _ => exact ⟨rfl, trivial, trivial⟩

/-- A tree that was read can be printed unless a key has both quotes in it. -/
theorem IsValue.everywhere_printable_iff {x : Node Span} (h : IsValue t n x) :
    Everywhere Printable x ↔ Everywhere QuotableKeys x := by
  refine IsValue.induction (motive := fun _ _ x => Everywhere Printable x ↔ Everywhere QuotableKeys x)
    ?string ?literal ?rest ?array ?object h
  case string =>
    intro t n text hq
    rw [everywhere_leaf rfl, everywhere_leaf rfl]
    exact iff_of_true hq.quotable trivial
  case literal =>
    intro t n x hl
    obtain ⟨hchildren, hprintable, hkeys⟩ := hl.printable
    rw [everywhere_leaf hchildren, everywhere_leaf hchildren]
    exact iff_of_true hprintable hkeys
  case rest =>
    intro n
    rw [everywhere_leaf rfl, everywhere_leaf rfl]
    exact Iff.rfl
  case array =>
    intro t n elements isOpen hbody hrest
    have helements : ∀ x ∈ elements, (Everywhere Printable x ↔ Everywhere QuotableKeys x) := by
      intro x hx
      obtain ⟨_, _, -, ih⟩ := hbody.exists_of_mem x hx
      exact ih
    rw [everywhere_array, everywhere_array, forall₂_congr helements]
    exact and_congr_left' (iff_of_true hrest trivial)
  case object =>
    intro t n pairs isOpen hbody
    have hfields : ∀ p ∈ pairs, (∃ mark name, p.1 = .string mark name) ∧
        (Everywhere Printable p.2 ↔ Everywhere QuotableKeys p.2) := by
      intro p hp
      obtain ⟨_, _, hfield⟩ := hbody.exists_of_mem p hp
      cases hfield with
      | intro hkey _ _ _ hcontent =>
        refine ⟨hkey.eq_string, ?_⟩
        cases hcontent with
        | value h => exact h.2
        | comma =>
          rw [everywhere_leaf rfl, everywhere_leaf rfl]
          exact iff_of_true (by simp [Printable, Text.Quotable]) trivial
    have hkeys : ∀ p ∈ pairs, (Everywhere Printable p.1 ↔ Text.Quotable p.1.keyName) ∧
        Everywhere QuotableKeys p.1 := by
      intro p hp
      obtain ⟨⟨mark, name, hname⟩, -⟩ := hfields p hp
      rw [hname, everywhere_leaf rfl, everywhere_leaf rfl]
      exact ⟨Iff.rfl, trivial⟩
    rw [everywhere_object, everywhere_object]
    constructor
    · rintro ⟨-, h⟩
      refine ⟨fun p hp => (hkeys p hp).1.mp (h p hp).1, fun p hp => ⟨(hkeys p hp).2, ?_⟩⟩
      exact (hfields p hp).2.mp (h p hp).2
    · rintro ⟨hquotable, h⟩
      refine ⟨fun p hp => (hfields p hp).1, fun p hp => ⟨?_, ?_⟩⟩
      · exact (hkeys p hp).1.mpr (hquotable p hp)
      · exact (hfields p hp).2.mpr (h p hp).2

end Grammar

end ValuePattern
