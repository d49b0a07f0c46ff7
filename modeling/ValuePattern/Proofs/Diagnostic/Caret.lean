import Mathlib.Data.List.TakeWhile
import ValuePattern.Diagnostic
import ValuePattern.Proofs.Grammar.Blame
/-!
Where the caret of a hint stands. The text before the blamed span is printed as it is, and the caret
goes below its last line. So it points at the last token only if that token is on this line: a line
end between the token and the blamed text leaves a last line of blanks.
-/
namespace ValuePattern

namespace Diagnostic

open Text

section Lines

variable {s t u w : List Char} {c : Char}

/-- What stands behind the last line end of a text. -/
def lastLine (t : List Char) : List Char := (t.reverse.takeWhile (· != '\n')).reverse

theorem caretColumn_eq (t : List Char) : caretColumn t = (trimEnd (lastLine t)).length - 1 := rfl

theorem lastLine_append_of_not_mem (hu : '\n' ∉ u) : lastLine (s ++ u) = lastLine s ++ u := by
  have hline : ∀ c ∈ u.reverse, (c != '\n') = true := by
    intro c hc
    rw [bne_iff_ne]
    rintro rfl
    exact hu (List.mem_reverse.mp hc)
  rw [lastLine, List.reverse_append, List.takeWhile_append_of_pos hline, List.reverse_append,
    List.reverse_reverse, lastLine]

theorem lastLine_of_not_mem (hu : '\n' ∉ u) : lastLine u = u :=
  lastLine_append_of_not_mem (s := []) hu

theorem lastLine_append_line (hu : '\n' ∉ u) : lastLine (s ++ '\n' :: u) = u := by
  have hend : lastLine (s ++ ['\n']) = [] := by
    simp [lastLine]
  rw [List.append_cons, lastLine_append_of_not_mem hu, hend, List.nil_append]

/-- A text with a line end has a last one. -/
theorem exists_append_line (h : '\n' ∈ t) : ∃ s u, t = s ++ '\n' :: u ∧ '\n' ∉ u := by
  obtain ⟨u, s, ht, hu⟩ := List.eq_append_cons_of_mem (List.mem_reverse.mpr h)
  refine ⟨s.reverse, u.reverse, ?_, mt List.mem_reverse.mp hu⟩
  rw [← List.reverse_reverse t, ht, List.reverse_append, List.reverse_cons, List.append_assoc]
  rfl

theorem length_splitOn (t : List Char) : (t.splitOn '\n').length = t.count '\n' + 1 := by
  induction t with
  | nil => rfl
  | cons c t ih =>
    rw [List.splitOn_cons_eq_if_modifyHead, List.count_cons]
    split
    · rw [List.length_cons, ih]
    · rw [List.length_modifyHead, ih]

/-- The lines of a text are as many as its line ends, and the last line. -/
theorem exists_splitOn_eq (t : List Char) :
    ∃ earlier, t.splitOn '\n' = earlier ++ [lastLine t] ∧ earlier.length = t.count '\n' := by
  have hsplit : ∃ earlier, t.splitOn '\n' = earlier ++ [lastLine t] := by
    by_cases h : '\n' ∈ t
    · obtain ⟨s, u, rfl, hu⟩ := exists_append_line h
      rw [List.splitOn_append_cons_self, List.splitOn_eq_singleton hu, lastLine_append_line hu]
      exact ⟨_, rfl⟩
    · rw [List.splitOn_eq_singleton h, lastLine_of_not_mem h]
      exact ⟨[], rfl⟩
  obtain ⟨earlier, hearlier⟩ := hsplit
  have hlength := length_splitOn t
  rw [hearlier, List.length_append, List.length_singleton] at hlength
  exact ⟨earlier, hearlier, by omega⟩

/-- The last character that is no blank. -/
def lastSolid? (t : List Char) : Option Char := t.reverse.find? fun c => !isBlank c

theorem lastSolid?_eq_some (hc : isBlank c = false) (hw : Blanks w) :
    lastSolid? (s ++ c :: w) = some c := by
  have hr : ∀ d ∈ w.reverse, ¬(!isBlank d) = true := by
    intro d hd
    simpa using hw d (List.mem_reverse.mp hd)
  rw [lastSolid?, List.reverse_append, List.reverse_cons, List.append_assoc,
    List.find?_append, List.find?_eq_none.mpr hr]
  simp [hc]

/-- A text with a character that is no blank ends with the last of these and blanks. -/
theorem exists_append_blanks (h : ¬Blanks t) :
    ∃ s c w, t = s ++ c :: w ∧ isBlank c = false ∧ Blanks w := by
  obtain ⟨w, hw, ht⟩ := trimEnd_append_blanks t
  have hsolid := startsSolid_dropWhile t.reverse
  rw [trimEnd] at ht
  cases hr : t.reverse.dropWhile isBlank with
  | nil =>
    rw [hr] at ht
    exact absurd (ht ▸ hw) h
  | cons c r =>
    rw [hr, startsSolid_cons] at hsolid
    rw [hr, List.reverse_cons, List.append_assoc] at ht
    exact ⟨r.reverse, c, w, ht.symm, hsolid, hw⟩

/-- Below the last line, the caret is below the last character that is no blank exactly if no line end
is among the blanks behind it. -/
theorem lastLine_caretColumn_iff (hc : isBlank c = false) (hw : Blanks w) :
    (lastLine (s ++ c :: w))[caretColumn (s ++ c :: w)]? = some c ↔ '\n' ∉ w := by
  constructor
  · intro h hline
    obtain ⟨x, u, rfl, hu⟩ := exists_append_line hline
    have hlast : lastLine (s ++ c :: (x ++ '\n' :: u)) = u := by
      rw [← List.cons_append, ← List.append_assoc, lastLine_append_line hu]
    rw [hlast] at h
    have hblank := hw c (List.mem_append_right _ (List.mem_cons_of_mem _ (List.mem_of_getElem? h)))
    rw [hblank] at hc
    exact absurd hc (by decide)
  · intro hline
    have hline' : '\n' ∉ c :: w := by
      rw [List.mem_cons]
      rintro (rfl | h)
      · exact absurd hc (by decide)
      · exact hline h
    have htrim : trimEnd (lastLine s ++ c :: w) = lastLine s ++ [c] := by
      have hr : Blanks w.reverse := fun d hd => hw d (List.mem_reverse.mp hd)
      rw [List.append_cons, trimEnd, List.reverse_append, List.reverse_append,
        dropWhile_blanks_append hr (by simpa using hc), ← List.reverse_append, List.reverse_reverse]
    rw [caretColumn_eq, lastLine_append_of_not_mem hline', htrim, List.length_append,
      List.length_singleton, Nat.add_sub_cancel, List.getElem?_append_right (Nat.le_refl _),
      Nat.sub_self]
    rfl

end Lines

/-- In the rendering, the caret of the hint stands below the last character before the blamed span
that is no blank: the lines of the text before the span come first, and the hint is the next line. -/
def CaretAtLastToken (e : SyntaxError) : Prop :=
  let lines := (render .plain e).toList.splitOn '\n'
  let before := e.source.toList.take e.fault.span.start
  ∃ (help : String) (above : List Char) (column : Nat) (c : Char), e.help = some help ∧
    lines[before.count '\n']? = some above ∧
    lines[before.count '\n' + 1]? =
      some (List.replicate column ' ' ++ ("^ help: " ++ help).toList) ∧
    lastSolid? before = some c ∧ above[column]? = some c

section Rendering

variable {e : SyntaxError} {help : String}

/-- The hint is the line behind the text before the blamed span. -/
theorem exists_splitOn_render (hhelp : e.help = some help) (hline : '\n' ∉ help.toList) :
    ∃ earlier behind, earlier.length = (consumed e).count '\n' ∧
      (render .plain e).toList.splitOn '\n' = earlier ++ lastLine (consumed e) ::
        (List.replicate (caretColumn (consumed e)) ' ' ++ ("^ help: " ++ help).toList) :: behind := by
  obtain ⟨message, hrender⟩ : ∃ message, (render .plain e).toList = consumed e ++ '\n' ::
      (List.replicate (caretColumn (consumed e)) ' ' ++ ("^ help: " ++ help).toList ++
        '\n' :: message) := by
    simp [render, hint, hhelp, Style.plain]
  have hhint : '\n' ∉
      List.replicate (caretColumn (consumed e)) ' ' ++ ("^ help: " ++ help).toList := by
    simp [hline]
  obtain ⟨earlier, hearlier, hcount⟩ := exists_splitOn_eq (consumed e)
  refine ⟨earlier, message.splitOn '\n', hcount, ?_⟩
  rw [hrender, List.splitOn_append_cons_self, hearlier,
    List.splitOn_append_cons_self_of_not_mem hhint, List.append_assoc]
  rfl

theorem consumed_eq (h : e.patternSpan.start = 0) :
    consumed e = e.source.toList.take e.fault.span.start := by
  rw [consumed, h, Nat.zero_min, Span.slice, List.drop_zero]

/-- With a hint of one line, the caret is at the last token exactly if no line end is among the
blanks between that token and the blamed span. -/
theorem caretAtLastToken_iff_of_help (hhelp : e.help = some help) (hline : '\n' ∉ help.toList)
    (hstart : e.patternSpan.start = 0) (hsolid : ¬Blanks (e.source.toList.take e.fault.span.start)) :
    CaretAtLastToken e ↔
      '\n' ∉ (e.source.toList.take e.fault.span.start).reverse.takeWhile isBlank := by
  obtain ⟨s, c, w, hbefore, hc, hw⟩ := exists_append_blanks hsolid
  obtain ⟨earlier, behind, hcount, hlines⟩ := exists_splitOn_render hhelp hline
  have hr : Blanks w.reverse := fun d hd => hw d (List.mem_reverse.mp hd)
  have hblanks : (s ++ c :: w).reverse.takeWhile isBlank = w.reverse := by
    rw [List.reverse_append, List.reverse_cons, List.append_assoc]
    exact takeWhile_blanks_append hr (by simpa using hc)
  rw [consumed_eq hstart, hbefore] at hcount hlines
  rw [CaretAtLastToken, hlines, hbefore, hblanks, ← hcount, List.mem_reverse,
    ← lastLine_caretColumn_iff (s := s) hc hw]
  simp only [List.getElem?_append_right (Nat.le_refl _),
    List.getElem?_append_right (Nat.le_add_right _ 1), Nat.sub_self, Nat.add_sub_cancel_left,
    List.getElem?_cons_zero, List.getElem?_cons_succ, lastSolid?_eq_some hc hw, hhelp]
  constructor
  · rintro ⟨_, _, column, _, ⟨⟩, ⟨⟩, hcolumn, ⟨⟩, hat⟩
    have hlength := congrArg List.length (Option.some.inj hcolumn)
    simp only [List.length_append, List.length_replicate] at hlength
    rwa [Nat.add_right_cancel hlength]
  · intro hat
    exact ⟨help, _, _, c, rfl, rfl, rfl, rfl, hat⟩

end Rendering

end Diagnostic

theorem Grammar.Told.cause_ne {p : Place} {f : Fault} (h : Told p f) :
    f.cause ≠ .trailingContent := by
  cases h with
  | intro _ _ _ hcause => exact hcause

namespace Pattern

open Text Place Grammar

variable {source : String} {e : SyntaxError}

/-- What stands before trailing content is a whole pattern with a value, and there is a hint. -/
theorem isPattern_of_trailingContent (h : compile source = .error e)
    (hcause : e.fault.cause = .trailingContent) :
    e.help = some singleExpressionHelp ∧
      ∃ x, IsPattern (e.source.toList.take e.fault.span.start) (some x) := by
  obtain ⟨rfl, -, hroot⟩ := compile_eq_error_iff.mp h
  obtain ⟨q, hvalue, -⟩ | ⟨x, q, hvalue, -, hfault, hhelp⟩ := readRoot_eq_error hroot
  · exact absurd hcause (value_told _ hvalue).cause_ne
  · obtain ⟨t, hpass, hpattern⟩ := isPattern_of_value hvalue
    have hstart : e.fault.span.start = t.length := by
      rw [hfault]
      exact hpass.pos.trans (Nat.zero_add _)
    have htext : e.source.toList = t ++ q.skipSpace.ahead := hpass.ahead
    rw [hstart, htext, List.take_left]
    exact ⟨hhelp, x, hpattern⟩

theorem not_blanks_of_isPattern {t : List Char} {x : Node Span} (h : IsPattern t (some x)) :
    ¬Blanks t := by
  cases h with
  | value _ hx _ =>
    obtain ⟨c, u, rfl, hc, -⟩ := hx.startsWith
    intro hblank
    rw [hblank c (by simp)] at hc
    exact absurd hc (by decide)

/-- Where something follows a whole pattern, the caret is at the last token exactly if no line end is
among the blanks between them. -/
theorem caretAtLastToken_iff (source : String) (e : SyntaxError) (h : compile source = .error e)
    (hcause : e.fault.cause = .trailingContent) :
    Diagnostic.CaretAtLastToken e ↔
      '\n' ∉ (source.toList.take e.fault.span.start).reverse.takeWhile isBlank := by
  obtain ⟨hsource, hspan, -⟩ := compile_eq_error_iff.mp h
  obtain ⟨hhelp, x, hpattern⟩ := isPattern_of_trailingContent h hcause
  rw [← hsource]
  exact Diagnostic.caretAtLastToken_iff_of_help hhelp (by decide) (by rw [hspan])
    (not_blanks_of_isPattern hpattern)

/-- On one line the caret is at the last token. -/
theorem caretAtLastToken_one_line :
    let e : SyntaxError := ⟨"null x", ⟨0, 6⟩, ⟨.trailingContent, 5, 6⟩, some singleExpressionHelp⟩
    compile "null x" = .error e ∧ Diagnostic.CaretAtLastToken e := by
  intro e
  have herror : compile "null x" = .error e := by cbv
  exact ⟨herror, (caretAtLastToken_iff _ e herror rfl).mpr (by decide)⟩

/-- With what follows on the next line, the caret is in the first column of an empty line. -/
theorem not_caretAtLastToken_next_line :
    let e : SyntaxError := ⟨"null\nx", ⟨0, 6⟩, ⟨.trailingContent, 5, 6⟩, some singleExpressionHelp⟩
    compile "null\nx" = .error e ∧ ¬Diagnostic.CaretAtLastToken e := by
  intro e
  have herror : compile "null\nx" = .error e := by cbv
  have hsolid : ¬Blanks (e.source.toList.take e.fault.span.start) :=
    fun h => absurd (h 'n' (by decide)) (by decide)
  have hiff := Diagnostic.caretAtLastToken_iff_of_help (e := e) rfl (by decide) rfl hsolid
  exact ⟨herror, fun h => hiff.mp h (by decide)⟩

end Pattern

end ValuePattern
