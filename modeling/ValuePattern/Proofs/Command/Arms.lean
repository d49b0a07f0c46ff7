import ValuePattern.Command.Run
import ValuePattern.Proofs.Entries.Names
import ValuePattern.Proofs.Table.Course
/-!
The arms of a dispatch. An arm is split at its last equals sign, and its pattern must be well formed.
Arms that are taken in fill a table: its names are their distinct patterns in the order in which they
first came, and the function under a name gives the label that came last with it. The first arm that
is not taken in ends the run.
-/
namespace ValuePattern.Command

/-- The last equals sign of an arm stands between its pattern and its label. -/
def Splits (arm pattern label : String) : Prop := arm = pattern ++ "=" ++ label ∧ '=' ∉ label.toList

/-- An arm is taken in with its pattern and label. -/
structure Takes (arm : String) (pair : String × String) : Prop where
  splits : Splits arm pair.1 pair.2
  compiles : ∃ p, Pattern.compile pair.1 = .ok p

/-- The ways in which an arm is not taken in, each with what the run then comes to. -/
inductive Rejects (arm : String) : Outcome → Prop
  | unsplit : '=' ∉ arm.toList →
      Rejects arm ⟨1, "", "error: " ++ ("arm " ++ Text.quoted arm ++ " must be PATTERN=LABEL") ++ "\n"⟩
  | malformed {pattern label e} : Splits arm pattern label → Pattern.compile pattern = .error e →
      Rejects arm ⟨2, "", Diagnostic.render .plain e ++ "\n"⟩

section Splitting

variable {arm pattern label : String}

theorem splitArm?_eq_some (h : Splits arm pattern label) :
    splitArm? arm = some (pattern, label) := by
  obtain ⟨rfl, hlabel⟩ := h
  have hbehind : ∀ c ∈ label.toList.reverse, (c != '=') = true := by
    intro c hc
    rw [bne_iff_ne]
    rintro rfl
    exact hlabel (List.mem_reverse.mp hc)
  have hbackwards : (pattern ++ "=" ++ label).toList.reverse =
      label.toList.reverse ++ '=' :: pattern.toList.reverse := by simp
  rw [splitArm?, hbackwards, List.takeWhile_append_of_pos hbehind,
    List.dropWhile_append_of_pos hbehind]
  simp

theorem splitArm?_eq_none (h : '=' ∉ arm.toList) : splitArm? arm = none := by
  have hnil : arm.toList.reverse.dropWhile (· != '=') = [] := by
    rw [List.dropWhile_eq_nil_iff]
    intro c hc
    rw [bne_iff_ne]
    rintro rfl
    exact h (List.mem_reverse.mp hc)
  simp only [splitArm?, hnil]

theorem exists_splits (h : '=' ∈ arm.toList) : ∃ pattern label, Splits arm pattern label := by
  obtain ⟨behind, before, heq, hbehind⟩ := List.eq_append_cons_of_mem (List.mem_reverse.mpr h)
  refine ⟨String.ofList before.reverse, String.ofList behind.reverse, ?_, by simpa using hbehind⟩
  apply String.toList_injective
  simpa using congrArg List.reverse heq

/-- An arm is taken in or not. -/
theorem takes_or_rejects (arm : String) : (∃ pair, Takes arm pair) ∨ ∃ o, Rejects arm o := by
  by_cases hsign : '=' ∈ arm.toList
  · obtain ⟨pattern, label, hsplits⟩ := exists_splits hsign
    cases hcompile : Pattern.compile pattern with
    | ok p => exact .inl ⟨(pattern, label), hsplits, p, hcompile⟩
    | error e => exact .inr ⟨_, .malformed hsplits hcompile⟩
  · exact .inr ⟨_, .unsplit hsign⟩

end Splitting

section Adding

variable {table : Table} {registry : Registry} {arm : String} {pair : String × String}

theorem addArms_of_takes (h : Takes arm pair) (arms : List String) :
    addArms table registry (arm :: arms) =
      addArms (table.insert pair.1 (.function (registry.add fun _ => .string pair.2).1))
        (registry.add fun _ => .string pair.2).2 arms := by
  obtain ⟨hsplits, p, hcompile⟩ := h
  rw [addArms, splitArm?_eq_some hsplits]
  simp only [hcompile]

theorem addArms_of_rejects {o : Outcome} (h : Rejects arm o) (arms : List String) :
    addArms table registry (arm :: arms) = .error o := by
  rw [addArms]
  cases h with
  | unsplit hsign => rw [splitArm?_eq_none hsign]; rfl
  | malformed hsplits hcompile => simp only [splitArm?_eq_some hsplits, hcompile]; rfl

end Adding

/-- A table is filled with patterns and labels. -/
structure Filled (table : Table) (registry : Registry) (pairs : List (String × String)) : Prop where
  nodup : (Entries.keys table.arms).Nodup
  names : Entries.keys table.arms = (pairs.map (·.1)).eraseDups
  labelled : ∀ {pattern handler}, Entries.get? pattern table.arms = some handler →
    ∃ f label, handler = .function f ∧ pairs.reverse.lookup pattern = some label ∧
      ∀ v, registry.host f v = .string label

section Filling

variable {table : Table} {registry : Registry} {pairs : List (String × String)}

theorem filled_empty : Filled .empty .empty [] where
  nodup := List.nodup_nil
  names := rfl
  labelled h := by simp [Table.empty] at h

/-- Taking in a function does not change what the others do. -/
theorem host_add_of_ne_missing {f : FunctionRef} {v : Value} (h : registry.host f v ≠ .missing)
    (g : Value → Value) : (registry.add g).2.host f v = registry.host f v := by
  have hne : f ≠ registry.functions.size := by
    rintro rfl
    simp [Registry.host] at h
  simp [Registry.host, Registry.add, Array.getElem?_push, hne]

/-- Taking in an arm fills the table with its pattern and label behind the others. -/
theorem Filled.add (h : Filled table registry pairs) (pattern label : String) :
    Filled (table.insert pattern (.function (registry.add fun _ => .string label).1))
      (registry.add fun _ => .string label).2 (pairs ++ [(pattern, label)]) where
  nodup := Entries.nodup_keys_insert _ h.nodup
  names := by
    rw [Table.insert, Entries.keys_insert_eraseDups h.names, List.map_append]
    rfl
  labelled := by
    intro other handler hget
    rw [List.reverse_append]
    by_cases heq : other = pattern
    · subst heq
      rw [Table.insert, Entries.get?_insert_self] at hget
      obtain rfl := Option.some.inj hget
      refine ⟨_, label, rfl, by simp, fun v => ?_⟩
      rw [Registry.host_add]
    · rw [Table.insert, Entries.get?_insert_of_ne heq] at hget
      -- the function of an earlier arm keeps its number, and its label is still the last one
      obtain ⟨f, l, hf, hl, hhost⟩ := h.labelled hget
      have hbehind : (other == pattern) = false := beq_eq_false_iff_ne.mpr heq
      refine ⟨f, l, hf, by simpa [List.lookup_cons, hbehind] using hl, fun v => ?_⟩
      rw [host_add_of_ne_missing (by simp [hhost]), hhost]

/-- Arms that are taken in fill the table, and what comes behind them is added then. -/
theorem Filled.exists_addArms {taken : List String} {more : List (String × String)}
    (h : Filled table registry pairs) (htaken : List.Forall₂ Takes taken more) :
    ∃ table' registry', Filled table' registry' (pairs ++ more) ∧
      ∀ arms, addArms table registry (taken ++ arms) = addArms table' registry' arms := by
  induction htaken generalizing table registry pairs with
  | nil => exact ⟨table, registry, by rwa [List.append_nil], fun arms => rfl⟩
  | @cons arm pair taken more harm _ ih =>
    obtain ⟨table', registry', hfilled, hadd⟩ := ih (h.add pair.1 pair.2)
    refine ⟨table', registry', by simpa using hfilled, fun arms => ?_⟩
    rw [List.cons_append, addArms_of_takes harm, hadd]

end Filling

end ValuePattern.Command
