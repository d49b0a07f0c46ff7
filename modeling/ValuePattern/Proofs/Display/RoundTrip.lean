import Mathlib
import ValuePattern.Proofs.Display.Necessity
/-!
Round trips through the normal form. A tree is read back from it, marks aside, exactly if it is
printable at every depth; so a pattern that was read survives being printed unless it has a key with
both quotes in it, which only a bare key can have.
-/
namespace ValuePattern

open Text Place Grammar

namespace Node

variable {α : Type}

theorem readRoot_display_of_printable {n : Node α} (h : Everywhere Printable n) :
    ∃ root, Pattern.readRoot n.display.toList = .ok (some root) ∧ root.erase = n.erase := by
  obtain ⟨x, hx, heq⟩ := isValue_display n h 0
  have hpattern : IsPattern n.display.toList (some x) := by
    simpa using IsPattern.value blanks_nil hx blanks_nil
  exact ⟨x, Pattern.readRoot_of_isPattern hpattern, heq⟩

theorem printable_of_readRoot_display {n : Node α} {root : Node Span}
    (h : Pattern.readRoot n.display.toList = .ok (some root)) (heq : root.erase = n.erase) :
    Everywhere Printable n := by
  obtain ⟨-, q, hq, -⟩ := Pattern.readRoot_eq_some_iff.mp h
  have hstart : (first n.display.toList).skipSpace = ⟨0, n.display.toList ++ []⟩ := by
    rw [first, List.append_nil]
    exact skipSpace_solid (by simpa using startsSolid_display n [])
  exact printable_of_value n Stop.separates_blank ((skipSpace_skipSpace _).trans hstart) hq heq

/-- A tree is read back from its normal form, marks aside, exactly if no string in it has both quotes,
every key is a string, no number is NaN and no element of an array is a rest marker. -/
theorem compile_display_iff (n : Node α) :
    (∃ p root, Pattern.compile n.display = .ok p ∧ p.root = some root ∧ root.erase = n.erase) ↔
      Everywhere Printable n := by
  constructor
  · rintro ⟨p, root, hcompile, hroot, heq⟩
    obtain ⟨-, hread⟩ := Pattern.compile_eq_ok_iff_readRoot.mp hcompile
    rw [hroot] at hread
    exact printable_of_readRoot_display hread heq
  · intro h
    obtain ⟨root, hread, heq⟩ := readRoot_display_of_printable h
    exact ⟨⟨n.display, some root⟩, root, Pattern.compile_eq_ok_iff_readRoot.mpr ⟨rfl, hread⟩, rfl,
      heq⟩

end Node

namespace Pattern

/-- Printing preserves a pattern: its normal form is read, as the same tree with other spans, and the
pattern read is printed and matches in the same way. -/
def Preserved (p : Pattern) : Prop :=
  ∃ p', compile p.display = .ok p' ∧ p'.root.map Node.erase = p.root.map Node.erase ∧
    p'.display = p.display ∧ ∀ v, p'.accepts v = p.accepts v

theorem display_eq_of_erase {p q : Pattern} (h : p.root.map Node.erase = q.root.map Node.erase) :
    p.display = q.display := by
  have hroot (r : Pattern) : r.display = (r.root.map Node.erase).elim "<any>" Node.display := by
    rw [display]
    cases r.root with
    | none => rfl
    | some root => exact root.display_erase.symm
  rw [hroot p, hroot q, h]

theorem accepts_eq_of_erase {p q : Pattern} (h : p.root.map Node.erase = q.root.map Node.erase)
    (v : Value) : p.accepts v = q.accepts v := by
  have hroot (r : Pattern) :
      r.accepts v = (r.root.map Node.erase).elim (.ok true) fun root => root.accepts v := by
    rw [accepts]
    cases r.root with
    | none => rfl
    | some root => exact (root.accepts_erase v).symm
  rw [hroot p, hroot q, h]

/-- A pattern with a tree survives being printed exactly if the names of all its keys, at every
depth, lack one of the two quotes. -/
theorem preserved_iff (source : String) (p : Pattern) (root : Node Span)
    (hcompile : compile source = .ok p) (hroot : p.root = some root) :
    Preserved p ↔ root.Everywhere Node.QuotableKeys := by
  obtain ⟨-, hread⟩ := compile_eq_ok_iff_readRoot.mp hcompile
  rw [hroot] at hread
  have hdisplay : p.display = root.display := by rw [display, hroot]
  obtain ⟨_, _, hx⟩ := exists_isValue_of_readRoot hread
  rw [← hx.everywhere_printable_iff]
  constructor
  · rintro ⟨p', hcompile', heq, -⟩
    obtain ⟨-, hread'⟩ := compile_eq_ok_iff_readRoot.mp hcompile'
    rw [hroot] at heq
    obtain ⟨root', hroot', heq⟩ := Option.map_eq_some_iff.mp heq
    rw [hroot', hdisplay] at hread'
    exact Node.printable_of_readRoot_display hread' heq
  · intro h
    obtain ⟨root', hread', heq⟩ := Node.readRoot_display_of_printable h
    have hroots : (some root').map Node.erase = p.root.map Node.erase := by
      rw [hroot, Option.map_some, Option.map_some, heq]
    refine ⟨⟨root.display, some root'⟩, ?_, hroots, display_eq_of_erase hroots,
      accepts_eq_of_erase hroots⟩
    rw [hdisplay]
    exact compile_eq_ok_iff_readRoot.mpr ⟨rfl, hread'⟩

/-- A bare key with an apostrophe is printed in the other quotes. -/
theorem preserved_apostrophe_key :
    ∃ p root, compile "\x7bit's: null\x7d" = .ok p ∧ p.root = some root ∧
      root.Everywhere Node.QuotableKeys ∧ Preserved p := by
  let root : Node Span := .object ⟨0, 12⟩ [(.string ⟨1, 5⟩ "it's", .null ⟨7, 11⟩)] false
  have hcompile : compile "\x7bit's: null\x7d" = .ok ⟨"\x7bit's: null\x7d", some root⟩ := by cbv
  have hkeys : root.Everywhere Node.QuotableKeys := by
    rw [Node.everywhere_object, List.forall_mem_singleton, Node.everywhere_leaf rfl,
      Node.everywhere_leaf rfl]
    simp [Node.QuotableKeys, Node.keyName, Text.Quotable]
  exact ⟨_, root, hcompile, rfl, hkeys, (preserved_iff _ _ root hcompile rfl).mpr hkeys⟩

/-- A bare key with both quotes is printed in one of them, which closes it too soon. -/
theorem not_preserved_two_quotes_key :
    ∃ p root, compile "\x7ba\"'b: null\x7d" = .ok p ∧ p.root = some root ∧ ¬ Preserved p := by
  let root : Node Span := .object ⟨0, 12⟩ [(.string ⟨1, 5⟩ "a\"'b", .null ⟨7, 11⟩)] false
  have hcompile : compile "\x7ba\"'b: null\x7d" = .ok ⟨"\x7ba\"'b: null\x7d", some root⟩ := by
    cbv
  refine ⟨_, root, hcompile, rfl, ?_⟩
  rintro ⟨p', hreprint, -⟩
  have hdisplay : root.display = "\x7b'a\"'b': null\x7d" := by decide +kernel
  have hfails : (compile "\x7b'a\"'b': null\x7d").isOk = false := by decide +kernel
  have hreads : (compile root.display).isOk = true := by
    change compile root.display = .ok p' at hreprint
    rw [hreprint]
    rfl
  rw [hdisplay, hfails] at hreads
  exact Bool.noConfusion hreads

end Pattern

end ValuePattern
