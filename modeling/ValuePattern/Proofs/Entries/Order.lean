import Mathlib.Data.List.Forall2
import Mathlib.Data.List.Perm.Subperm
import ValuePattern.Proofs.Entries.Names
/-!
Entries in another order. With distinct names the order does not show in what is found; and entries
among which every one of as many distinct names is found are, in another order, the entries under
these names.
-/
namespace ValuePattern.Entries

variable {α β : Type} {name : String} {R : α → β → Prop}
variable {xs : List (String × α)} {ys zs : List (String × β)}

theorem get?_eq_some_iff {b : β} (hnodup : (keys ys).Nodup) :
    get? name ys = some b ↔ (name, b) ∈ ys := ⟨mem_of_get?, get?_of_mem hnodup⟩

theorem get?_eq_of_perm (h : ys.Perm zs) (hnodup : (keys ys).Nodup) :
    get? name ys = get? name zs := by
  have hnodup' : (keys zs).Nodup := (h.map Prod.fst).nodup_iff.mp hnodup
  refine Option.ext fun b => ?_
  rw [get?_eq_some_iff hnodup, get?_eq_some_iff hnodup', h.mem_iff]

/-- Under the same names in the same order, related entries are found. -/
theorem exists_get?_of_forall₂ {a : α} (hkeys : keys xs = keys zs)
    (hentries : List.Forall₂ R (xs.map Prod.snd) (zs.map Prod.snd)) (h : get? name xs = some a) :
    ∃ b, get? name zs = some b ∧ R a b := by
  induction xs generalizing zs with
  | nil => simp at h
  | cons x xs ih =>
    cases zs with
    | nil => simp [keys] at hkeys
    | cons z zs =>
      obtain ⟨key, a'⟩ := x
      obtain ⟨key', b⟩ := z
      obtain ⟨rfl, htail⟩ : key = key' ∧ keys xs = keys zs := List.cons.inj hkeys
      obtain ⟨hfirst, hentries⟩ := List.forall₂_cons.mp hentries
      rw [get?] at h ⊢
      split at h
      · rename_i hkey
        obtain rfl := Option.some.inj h
        exact ⟨b, if_pos hkey, hfirst⟩
      · rename_i hkey
        rw [if_neg hkey]
        exact ih htail hentries h

/-- What is found under names can be listed in the order of the names. -/
theorem exists_listed (h : ∀ x ∈ xs, ∃ b, get? x.1 ys = some b ∧ R x.2 b) :
    ∃ zs, zs ⊆ ys ∧ keys xs = keys zs ∧ List.Forall₂ R (xs.map Prod.snd) (zs.map Prod.snd) := by
  induction xs with
  | nil => exact ⟨[], List.nil_subset ys, rfl, .nil⟩
  | cons x xs ih =>
    obtain ⟨⟨b, hb, hrelated⟩, hrest⟩ := List.forall_mem_cons.mp h
    obtain ⟨zs, hsub, hkeys, hentries⟩ := ih hrest
    refine ⟨(x.1, b) :: zs, List.cons_subset.mpr ⟨mem_of_get? hb, hsub⟩, ?_, .cons hrelated hentries⟩
    exact congrArg (x.1 :: ·) hkeys

/-- As distinct names are all found, and among no more entries than there are names, no entry is left
over. -/
theorem exists_perm (hnodup : (keys xs).Nodup) (hlen : ys.length ≤ xs.length)
    (h : ∀ x ∈ xs, ∃ b, get? x.1 ys = some b ∧ R x.2 b) :
    ∃ zs, zs.Perm ys ∧ keys xs = keys zs ∧ List.Forall₂ R (xs.map Prod.snd) (zs.map Prod.snd) := by
  obtain ⟨zs, hsub, hkeys, hentries⟩ := exists_listed h
  have hdistinct : zs.Nodup := by
    rw [hkeys] at hnodup
    exact hnodup.of_map Prod.fst
  have hlen' : ys.length ≤ zs.length := by
    have hlength := congrArg List.length hkeys
    rw [length_keys, length_keys] at hlength
    omega
  exact ⟨zs, (List.subperm_of_subset hdistinct hsub).perm_of_length_le hlen', hkeys, hentries⟩

end ValuePattern.Entries
