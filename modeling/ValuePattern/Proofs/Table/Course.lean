import Mathlib
import ValuePattern.Proofs.Grammar.Compile
import ValuePattern.Table
/-!
The course of dispatching. Either a handler is no function, and then nothing is tried, or the arms are
passed over in order up to the first that is not: one that is not well formed, one that cannot be
matched with the value, or one that matches. That arm gives the result, makes the only call there can
be, and leaves its events behind those of the arms passed over. What comes behind it is never seen.
-/
namespace ValuePattern.Table

/-- A list has a first entry without a property, or none. -/
theorem forall_or_exists_first {α : Type} (P : α → Prop) (entries : List α) :
    (∀ a ∈ entries, P a) ∨
      ∃ before a after, entries = before ++ a :: after ∧ (∀ b ∈ before, P b) ∧ ¬ P a := by
  induction entries with
  | nil => exact .inl (by simp)
  | cons a entries ih =>
    by_cases ha : P a
    · obtain hall | ⟨before, b, after, rfl, hbefore, hb⟩ := ih
      · exact .inl (List.forall_mem_cons.mpr ⟨ha, hall⟩)
      · exact .inr ⟨a :: before, b, after, rfl, List.forall_mem_cons.mpr ⟨ha, hbefore⟩, hb⟩
    · exact .inr ⟨[], a, entries, rfl, by simp, ha⟩

/-- All handlers are functions. -/
def AllCallable (arms : List (String × Value)) : Prop := ∀ arm ∈ arms, ∃ f, arm.2 = .function f

/-- A pattern is well formed, and the value does not match it. -/
def PassedOver (v : Value) (source : String) : Prop :=
  ∃ p, Pattern.compile source = .ok p ∧ p.accepts v = .ok false

/-- What is reported of reading a text: that it has no tree, or what kind of tree it has. -/
def readEvent (source : String) : Option (Node Span) → Event
  | none => .compiledAny source
  | some root => .compiled source root.kindName

/-- The events of reading a pattern and setting out to try it. -/
def tried (source : String) : List Event :=
  match Pattern.compile source with
  | .error _ => []
  | .ok p => [readEvent source p.root, .trying source]

/-- The events of trying arms that are passed over. -/
def triedAll {α : Type} (arms : List (String × α)) : List Event :=
  arms.flatMap fun arm => tried arm.1

/-- The ways in which an arm is not passed over, each with what dispatching then comes to. -/
inductive Stops (host : Host) (v : Value) (source : String) (f : FunctionRef) : Dispatch → Prop
  | malformed {e} : Pattern.compile source = .error e →
      Stops host v source f ⟨.error (.malformed e), [], []⟩
  | unsupported {p u} : Pattern.compile source = .ok p → p.accepts v = .error u →
      Stops host v source f ⟨.error (.unsupported u), [], [readEvent source p.root, .trying source]⟩
  | matched {p} : Pattern.compile source = .ok p → p.accepts v = .ok true →
      Stops host v source f ⟨.ok (some (host f v)), [(f, v)],
        [readEvent source p.root, .trying source, .matched source]⟩

/-- The ways in which dispatching goes. -/
inductive Course (host : Host) (v : Value) (arms : List (String × Value)) : Dispatch → Prop
  | notCallable {before source handler after} : arms = before ++ (source, handler) :: after →
      AllCallable before → (∀ f, handler ≠ .function f) →
      Course host v arms ⟨.error (.notCallable source handler.kind), [], []⟩
  | stopped {before source f after d} : AllCallable arms →
      arms = before ++ (source, .function f) :: after → (∀ arm ∈ before, PassedOver v arm.1) →
      Stops host v source f d →
      Course host v arms ⟨d.result, d.calls, triedAll before ++ d.events⟩
  | exhausted : AllCallable arms → (∀ arm ∈ arms, PassedOver v arm.1) →
      Course host v arms ⟨.ok none, [], triedAll arms ++ [.noneMatched arms.length]⟩

section Callables

/-- An arm whose handler is a function. -/
def armOf (arm : String × FunctionRef) : String × Value := (arm.1, .function arm.2)

theorem AllCallable.exists_map {arms : List (String × Value)} (h : AllCallable arms) :
    ∃ fs : List (String × FunctionRef), arms = fs.map armOf := by
  induction arms with
  | nil => exact ⟨[], rfl⟩
  | cons arm arms ih =>
    obtain ⟨⟨f, hf⟩, hrest⟩ := List.forall_mem_cons.mp h
    obtain ⟨fs, rfl⟩ := ih hrest
    exact ⟨(arm.1, f) :: fs, by rw [List.map_cons, armOf, ← hf]⟩

theorem map_armOf_append (fs gs : List (String × FunctionRef)) (source : String) (f : FunctionRef) :
    fs.map armOf ++ (source, .function f) :: gs.map armOf = (fs ++ (source, f) :: gs).map armOf := by
  simp [armOf]

/-- The arms before and behind one arm, as arms whose handlers are functions. -/
theorem AllCallable.exists_map_append {before after : List (String × Value)} {arm : String × Value}
    (h : AllCallable (before ++ arm :: after)) :
    ∃ fs gs : List (String × FunctionRef), before = fs.map armOf ∧ after = gs.map armOf := by
  obtain ⟨hbefore, hafter⟩ := List.forall_mem_append.mp h
  obtain ⟨fs, hfs⟩ := AllCallable.exists_map hbefore
  obtain ⟨gs, hgs⟩ := AllCallable.exists_map (List.forall_mem_cons.mp hafter).2
  exact ⟨fs, gs, hfs, hgs⟩

theorem callables_map_armOf (fs : List (String × FunctionRef)) : callables (fs.map armOf) = .ok fs := by
  induction fs with
  | nil => rfl
  | cons arm fs ih => rw [List.map_cons, armOf, callables, ih]; rfl

/-- The first handler that is no function is blamed. -/
theorem callables_append {source : String} {handler : Value} (fs : List (String × FunctionRef))
    (after : List (String × Value)) (h : ∀ f, handler ≠ .function f) :
    callables (fs.map armOf ++ (source, handler) :: after) =
      .error (.notCallable source handler.kind) := by
  induction fs with
  | nil =>
    cases handler with
    | function f => exact absurd rfl (h f)
    | _ => rfl
  | cons arm fs ih => rw [List.map_cons, List.cons_append, armOf, callables, ih]; rfl

end Callables

section Trying

variable {host : Host} {v : Value} {source : String} {f : FunctionRef} {d : Dispatch}

theorem Stops.not_passedOver (h : Stops host v source f d) : ¬ PassedOver v source := by
  rintro ⟨p, hp, hfalse⟩
  cases h with
  | malformed he => simp [he] at hp
  | unsupported hq hu => simp_all
  | matched hq ht => simp_all

theorem exists_stops (host : Host) (f : FunctionRef) (h : ¬ PassedOver v source) :
    ∃ d, Stops host v source f d := by
  cases hp : Pattern.compile source with
  | error e => exact ⟨_, .malformed hp⟩
  | ok p =>
    cases ha : p.accepts v with
    | error u => exact ⟨_, .unsupported hp ha⟩
    | ok b =>
      cases b with
      | true => exact ⟨_, .matched hp ha⟩
      | false => exact absurd ⟨p, hp, ha⟩ h

/-- The event of a pattern tells of the text that it was read from. -/
theorem event_eq_readEvent {p : Pattern} (h : Pattern.compile source = .ok p) :
    p.event = readEvent source p.root := by
  obtain ⟨rfl, -⟩ := Pattern.compile_eq_ok_iff_readRoot.mp h
  rw [Pattern.event]
  cases p.root with
  | none => rfl
  | some root => rfl

/-- Trying arms ends at one that is not passed over. -/
theorem Stops.tryArms_eq (h : Stops host v source f d) (size : Nat)
    (later : List (String × FunctionRef)) : tryArms host v size ((source, f) :: later) = d := by
  rw [tryArms]
  cases h with
  | malformed he => simp only [he]
  | unsupported hp hu => simp only [hp, hu, event_eq_readEvent hp]
  | matched hp ht => simp only [hp, ht, event_eq_readEvent hp]

/-- Trying arms goes on behind those that are passed over. -/
theorem tryArms_append (size : Nat) {before : List (String × FunctionRef)}
    (h : ∀ arm ∈ before, PassedOver v arm.1) (later : List (String × FunctionRef)) :
    tryArms host v size (before ++ later) =
      ⟨(tryArms host v size later).result, (tryArms host v size later).calls,
        triedAll before ++ (tryArms host v size later).events⟩ := by
  induction before with
  | nil => rfl
  | cons arm before ih =>
    obtain ⟨⟨p, hp, hfalse⟩, hbefore⟩ := List.forall_mem_cons.mp h
    rw [List.cons_append, tryArms]
    simp only [hp, hfalse, ih hbefore, triedAll, List.flatMap_cons, tried, event_eq_readEvent hp,
      List.cons_append, List.nil_append]

/-- What comes behind an arm that is not passed over does not matter. -/
theorem tryArms_eq_of_stop (h : ¬ PassedOver v source) (size size' : Nat)
    (before later later' : List (String × FunctionRef)) :
    tryArms host v size (before ++ (source, f) :: later) =
      tryArms host v size' (before ++ (source, f) :: later') := by
  induction before with
  | nil =>
    obtain ⟨d, hd⟩ := exists_stops host f h
    exact (hd.tryArms_eq size later).trans (hd.tryArms_eq size' later').symm
  | cons arm before ih => simp only [List.cons_append, tryArms, ih]

end Trying

section Dispatch

variable {host : Host} {v : Value} {arms : List (String × Value)} {d : Dispatch}

theorem triedAll_map_armOf (fs : List (String × FunctionRef)) :
    triedAll (fs.map armOf) = triedAll fs := by
  rw [triedAll, List.flatMap_map]
  rfl

theorem passedOver_of_map_armOf {fs : List (String × FunctionRef)}
    (h : ∀ arm ∈ fs.map armOf, PassedOver v arm.1) : ∀ arm ∈ fs, PassedOver v arm.1 :=
  fun arm harm => h (armOf arm) (List.mem_map_of_mem harm)

theorem dispatch_map_armOf (fs : List (String × FunctionRef)) :
    dispatch host ⟨fs.map armOf⟩ v = tryArms host v fs.length fs := by
  simp only [dispatch, callables_map_armOf, size, List.length_map]

theorem Course.dispatch_eq (h : Course host v arms d) : dispatch host ⟨arms⟩ v = d := by
  cases h with
  | notCallable harms hbefore hhandler =>
    obtain ⟨fs, rfl⟩ := hbefore.exists_map
    rw [dispatch, harms, callables_append fs _ hhandler]
  | @stopped before source f after d hcallable harms hpassed hstops =>
    subst harms
    obtain ⟨fs, gs, rfl, rfl⟩ := hcallable.exists_map_append
    rw [map_armOf_append, dispatch_map_armOf, tryArms_append _ (passedOver_of_map_armOf hpassed),
      hstops.tryArms_eq, triedAll_map_armOf]
  | exhausted hcallable hpassed =>
    obtain ⟨fs, rfl⟩ := hcallable.exists_map
    rw [dispatch_map_armOf, ← List.append_nil fs, tryArms_append _ (passedOver_of_map_armOf hpassed),
      List.append_nil, tryArms, triedAll_map_armOf, List.length_map]

/-- Dispatching has a course. -/
theorem exists_course (host : Host) (v : Value) (arms : List (String × Value)) :
    ∃ d, Course host v arms d := by
  obtain hcallable | ⟨before, ⟨source, handler⟩, after, harms, hbefore, hhandler⟩ :=
    forall_or_exists_first (fun arm : String × Value => ∃ f, arm.2 = .function f) arms
  · obtain hpassed | ⟨before, ⟨source, handler⟩, after, harms, hbefore, hstop⟩ :=
      forall_or_exists_first (fun arm : String × Value => PassedOver v arm.1) arms
    · exact ⟨_, .exhausted hcallable hpassed⟩
    · obtain ⟨f, rfl⟩ := hcallable (source, handler) (by simp [harms])
      obtain ⟨d, hd⟩ := exists_stops host f hstop
      exact ⟨_, .stopped hcallable harms hbefore hd⟩
  · exact ⟨_, .notCallable harms hbefore (not_exists.mp hhandler)⟩

/-- The calls of a course: the handler of the arm that matched, once and with the value, or none. -/
theorem Course.calls_cases (h : Course host v arms d) :
    (∃ f, d.result = .ok (some (host f v)) ∧ d.calls = [(f, v)]) ∨
      (∀ answer, d.result ≠ .ok (some answer)) ∧ d.calls = [] := by
  cases h with
  | notCallable => exact .inr ⟨by simp, rfl⟩
  | @stopped before source f after d _ _ _ hstops =>
    cases hstops with
    | malformed _ => exact .inr ⟨by simp, rfl⟩
    | unsupported _ _ => exact .inr ⟨by simp, rfl⟩
    | matched _ _ => exact .inl ⟨f, rfl, rfl⟩
  | exhausted => exact .inr ⟨by simp, rfl⟩

/-- The arms behind one that is not passed over can be replaced by any others that have functions for
handlers. -/
theorem dispatch_eq_of_stop {source : String} {f : FunctionRef}
    {before after after' : List (String × Value)} (hstop : ¬ PassedOver v source)
    (hcallable : AllCallable (before ++ (source, .function f) :: after))
    (hcallable' : AllCallable after') :
    dispatch host ⟨before ++ (source, .function f) :: after'⟩ v =
      dispatch host ⟨before ++ (source, .function f) :: after⟩ v := by
  obtain ⟨fs, gs, rfl, rfl⟩ := hcallable.exists_map_append
  obtain ⟨gs', rfl⟩ := hcallable'.exists_map
  rw [map_armOf_append, map_armOf_append, dispatch_map_armOf, dispatch_map_armOf]
  exact tryArms_eq_of_stop hstop _ _ fs gs' gs

/-- Dispatching takes its one course. If it has an answer, that is the answer of the one call it makes,
with the value itself, and otherwise it makes none; and what comes behind an arm that is not passed
over has no influence. -/
theorem dispatch_eq_iff_course (host : Host) (t : Table) (v : Value) :
    (∀ d, t.dispatch host v = d ↔ Course host v t.arms d) ∧
    ((∃ f, (t.dispatch host v).result = .ok (some (host f v)) ∧
        (t.dispatch host v).calls = [(f, v)]) ∨
      (∀ answer, (t.dispatch host v).result ≠ .ok (some answer)) ∧
        (t.dispatch host v).calls = []) ∧
    (∀ before source f after after', t.arms = before ++ (source, .function f) :: after →
      AllCallable t.arms → ¬ PassedOver v source → AllCallable after' →
      dispatch host ⟨before ++ (source, .function f) :: after'⟩ v = t.dispatch host v) := by
  obtain ⟨d, hd⟩ := exists_course host v t.arms
  have hdispatch : t.dispatch host v = d := hd.dispatch_eq
  refine ⟨fun d' => ⟨?_, fun h => h.dispatch_eq⟩, ?_, ?_⟩
  · rintro rfl
    rwa [hdispatch]
  · rw [hdispatch]
    exact hd.calls_cases
  · intro before source f after after' harms hcallable hstop hcallable'
    obtain ⟨arms⟩ := t
    subst harms
    exact dispatch_eq_of_stop hstop hcallable hcallable'

/-- Behind an arm that matches, an arm that is not well formed does no harm. -/
theorem dispatch_eq_iff_course_second_arm :
    let arms : List (String × Value) := [("true", .function 0), ("null", .function 1)]
    let host : Host := fun _ v => v
    AllCallable (arms ++ [("[", .function 2)]) ∧ ¬ PassedOver .null "null" ∧
      dispatch host ⟨arms⟩ .null = dispatch host ⟨arms ++ [("[", .function 2)]⟩ .null := by
  intro arms host
  have hcompile : Pattern.compile "null" = .ok ⟨"null", some (.null ⟨0, 4⟩)⟩ := by cbv
  have hstops : Stops host .null "null" 1 _ := .matched hcompile rfl
  have hcallable : AllCallable (arms ++ [("[", .function 2)]) := by simp [AllCallable, arms]
  refine ⟨hcallable, hstops.not_passedOver, ?_⟩
  exact (dispatch_eq_iff_course host ⟨arms ++ [("[", .function 2)]⟩ .null).2.2
    [("true", .function 0)] "null" 1 [("[", .function 2)] [] rfl hcallable hstops.not_passedOver
    (by simp [AllCallable])

end Dispatch

end ValuePattern.Table
