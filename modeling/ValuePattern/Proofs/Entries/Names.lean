import Mathlib.Data.List.Nodup
import ValuePattern.Entries
/-!
The names of entries. Inserting keeps them distinct, so entries that come of inserting have distinct
names, and what is found under a name is all there is under it.
-/
namespace ValuePattern.Entries

variable {α : Type} {name : String} {entries : List (String × α)}

theorem length_keys : (keys entries).length = entries.length := List.length_map _

theorem mem_keys_iff : name ∈ keys entries ↔ ∃ a, get? name entries = some a := by
  induction entries with
  | nil => simp [keys]
  | cons entry rest ih =>
    obtain ⟨key, b⟩ := entry
    by_cases h : key = name
    · simp [keys, get?, h]
    · simp only [keys] at ih
      simp [keys, get?, h, Ne.symm h, ih]

theorem mem_of_get? {a : α} (h : get? name entries = some a) : (name, a) ∈ entries := by
  induction entries with
  | nil => simp at h
  | cons entry rest ih =>
    obtain ⟨key, b⟩ := entry
    rw [get?] at h
    split at h
    · rename_i hkey
      obtain rfl := Option.some.inj h
      rw [← eq_of_beq hkey]
      exact List.mem_cons_self
    · exact List.mem_cons_of_mem _ (ih h)

theorem get?_of_mem {a : α} (hnodup : (keys entries).Nodup) (h : (name, a) ∈ entries) :
    get? name entries = some a := by
  induction entries with
  | nil => simp at h
  | cons entry rest ih =>
    obtain ⟨key, b⟩ := entry
    obtain ⟨hkey, hrest⟩ := List.nodup_cons.mp hnodup
    rw [get?]
    rcases List.mem_cons.mp h with heq | h
    · obtain ⟨rfl, rfl⟩ := Prod.mk.inj heq
      rw [if_pos (beq_self_eq_true name)]
    · have hne : (key == name) = false := by
        rw [beq_eq_false_iff_ne]
        rintro rfl
        have hmem : key ∈ keys rest := List.mem_map_of_mem h
        exact hkey hmem
      rw [hne, if_neg Bool.false_ne_true, ih hrest h]

/-- Entries with distinct names are listed by their names and what is found under them. -/
theorem map_some_eq (hnodup : (keys entries).Nodup) :
    entries.map (Prod.map id some) = (keys entries).map fun name => (name, get? name entries) := by
  rw [keys, List.map_map]
  refine List.map_congr_left fun entry hentry => ?_
  simp [get?_of_mem hnodup hentry, Prod.map]

/-- Inserting puts nothing in but its own entry. -/
theorem mem_insert {a : α} {entry : String × α} (h : entry ∈ (insert name a entries).2) :
    entry = (name, a) ∨ entry ∈ entries := by
  induction entries with
  | nil => exact .inl (List.mem_singleton.mp h)
  | cons first rest ih =>
    obtain ⟨key, b⟩ := first
    rw [insert] at h
    split at h
    · rename_i hkey
      obtain rfl := eq_of_beq hkey
      exact (List.mem_cons.mp h).imp_right (List.mem_cons_of_mem _)
    · rcases List.mem_cons.mp h with rfl | h
      · exact .inr List.mem_cons_self
      · exact (ih h).imp_right (List.mem_cons_of_mem _)

theorem mem_insertAll {pairs : List (String × α)} {entry : String × α}
    (h : entry ∈ insertAll entries pairs) : entry ∈ pairs ∨ entry ∈ entries := by
  induction pairs generalizing entries with
  | nil => exact .inr h
  | cons pair pairs ih =>
    rcases ih h with h | h
    · exact .inl (List.mem_cons_of_mem _ h)
    · rcases mem_insert h with rfl | h
      · exact .inl List.mem_cons_self
      · exact .inr h

theorem mem_ofPairs {pairs : List (String × α)} {entry : String × α} (h : entry ∈ ofPairs pairs) :
    entry ∈ pairs := (mem_insertAll h).resolve_right List.not_mem_nil

theorem nodup_keys_insert (a : α) (h : (keys entries).Nodup) :
    (keys (insert name a entries).2).Nodup := by
  rw [keys_insert]
  split
  · exact h
  · rename_i hname
    exact List.nodup_append_comm.mp (List.nodup_cons.mpr ⟨hname, h⟩)

theorem nodup_keys_insertAll (pairs : List (String × α)) (h : (keys entries).Nodup) :
    (keys (insertAll entries pairs)).Nodup := by
  induction pairs generalizing entries with
  | nil => exact h
  | cons pair pairs ih => exact ih (nodup_keys_insert pair.2 h)

theorem nodup_keys_ofPairs (pairs : List (String × α)) : (keys (ofPairs pairs)).Nodup :=
  nodup_keys_insertAll pairs List.nodup_nil

/-- A name that was there keeps its place, and a new one comes last. -/
theorem keys_insert_eraseDups {names : List String} (h : keys entries = names.eraseDups)
    (name : String) (a : α) :
    keys (insert name a entries).2 = (names ++ [name]).eraseDups := by
  rw [keys_insert, h, List.eraseDups_append]
  simp only [List.mem_eraseDups]
  by_cases hold : name ∈ names
  · simp [List.removeAll, hold]
  · simp [List.removeAll, hold, List.eraseDups_cons]

section Filter

variable (kept : String → Bool)

theorem keys_filter : keys (entries.filter fun e => kept e.1) = (keys entries).filter kept := by
  rw [keys, keys, List.filter_map]
  rfl

/-- Leaving out entries by their names does not change what is found under the others. -/
theorem get?_filter (h : kept name = true) :
    get? name (entries.filter fun e => kept e.1) = get? name entries := by
  induction entries with
  | nil => rfl
  | cons entry rest ih =>
    obtain ⟨key, b⟩ := entry
    by_cases hkey : kept key = true
    · simp only [List.filter_cons, hkey, if_true, get?, ih]
    · have hne : key ≠ name := by
        rintro rfl
        exact hkey h
      simp [hkey, get?, hne, ih]

end Filter

end ValuePattern.Entries
