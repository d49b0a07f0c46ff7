import Mathlib.Data.Finset.Card
import ValuePattern.Proofs.Entries.Names
import ValuePattern.Table
/-!
Runs of insertions. Whatever is inserted where nothing was, the names that are then there are the
names that were given, each at the place where it first came, and under each is what was given with it
last. A table keeps its arms in the same way.
-/
namespace ValuePattern

namespace Entries

variable {α : Type} {pairs entries changed : List (String × α)} {name : String} {a : α}

/-- What is there after pairs were inserted, one after another, where nothing was. -/
structure Kept (pairs entries : List (String × α)) : Prop where
  distinct : (keys entries).Nodup
  /-- the names stand in the order in which they first came -/
  order : keys entries = (keys pairs).eraseDups
  /-- what is found is what was given last -/
  found : ∀ name, get? name entries = pairs.reverse.lookup name
  count : entries.length = (keys pairs).toFinset.card

/-- What changes when an entry is put under a name: it is found there, and what is under the other
names stays, with these names in their places. -/
structure Puts (name : String) (a : α) (entries changed : List (String × α)) : Prop where
  found : get? name changed = some a
  others : ∀ other, other ≠ name → get? other changed = get? other entries
  places : ∀ other, other ≠ name → (keys changed).idxOf? other = (keys entries).idxOf? other

/-- There are as many entries as distinct names. -/
theorem length_eq_card (hnodup : (keys entries).Nodup) (h : keys entries = (keys pairs).eraseDups) :
    entries.length = (keys pairs).toFinset.card := by
  have hsame : (keys entries).toFinset = (keys pairs).toFinset := by
    ext name
    rw [List.mem_toFinset, List.mem_toFinset, h, List.mem_eraseDups]
  rw [← hsame, List.toFinset_card_of_nodup hnodup, length_keys]

theorem kept_nil : Kept (α := α) [] [] where
  distinct := List.nodup_nil
  order := rfl
  found _ := rfl
  count := rfl

/-- One more insertion keeps what one more pair gives. -/
theorem Kept.insert (h : Kept pairs entries) (name : String) (a : α) :
    Kept (pairs ++ [(name, a)]) (insert name a entries).2 := by
  have hdistinct : (keys (Entries.insert name a entries).2).Nodup :=
    nodup_keys_insert a h.distinct
  have horder : keys (Entries.insert name a entries).2 = (keys (pairs ++ [(name, a)])).eraseDups := by
    rw [keys_insert_eraseDups h.order, keys, keys, List.map_append, List.map_singleton]
  refine ⟨hdistinct, horder, fun other => ?_, length_eq_card hdistinct horder⟩
  rw [List.reverse_append]
  by_cases heq : other = name
  · subst heq
    rw [get?_insert_self]
    simp
  · have hbehind : (other == name) = false := beq_eq_false_iff_ne.mpr heq
    rw [get?_insert_of_ne heq, h.found]
    simp [List.lookup_cons, hbehind]

/-- Pairs are inserted from the first to the last. -/
theorem ofPairs_append_singleton (pairs : List (String × α)) (name : String) (a : α) :
    ofPairs (pairs ++ [(name, a)]) = (insert name a (ofPairs pairs)).2 := by
  rw [ofPairs, ofPairs, insertAll, List.foldl_append]
  rfl

theorem kept_ofPairs (pairs : List (String × α)) : Kept pairs (ofPairs pairs) := by
  induction pairs using List.reverseRecOn with
  | nil => exact kept_nil
  | append_singleton pairs pair ih =>
    rw [ofPairs_append_singleton]
    exact ih.insert pair.1 pair.2

/-- What is kept of pairs is settled by them. -/
theorem Kept.eq {others : List (String × α)} (h : Kept pairs entries) (h' : Kept pairs others) :
    entries = others := by
  have hinjective : Function.Injective (Prod.map (id : String → String) (some : α → Option α)) :=
    Function.injective_id.prodMap (Option.some_injective α)
  apply List.map_injective_iff.mpr hinjective
  rw [map_some_eq h.distinct, map_some_eq h'.distinct, h.order, h'.order]
  simp only [h.found, h'.found]

theorem puts_insert (name : String) (a : α) (entries : List (String × α)) :
    Puts name a entries (insert name a entries).2 := by
  refine ⟨get?_insert_self name a entries, fun other hne => get?_insert_of_ne hne a entries,
    fun other hne => ?_⟩
  rw [keys_insert]
  split
  · rfl
  · -- a name that comes last is behind all the others
    have hlast : (name == other) = false := beq_eq_false_iff_ne.mpr (Ne.symm hne)
    simp [List.idxOf?, List.findIdx?_append, List.findIdx?_cons, hlast]

end Entries

namespace Table

open Entries

/-- Arms are inserted from the first to the last. -/
theorem foldl_insert (arms : List (String × Value)) (t : Table) :
    arms.foldl (fun t arm => t.insert arm.1 arm.2) t = ⟨insertAll t.arms arms⟩ := by
  induction arms generalizing t with
  | nil => rfl
  | cons arm arms ih => exact ih (t.insert arm.1 arm.2)

end Table

open Entries

/-- Runs of insertions. The fields of an object that come of inserting pairs where there were none
keep what the pairs gave; inserting one more gives what was found under its name before, and changes
nothing under other names, nor where these stand. The arms of a table come and change in the same
way. -/
theorem kept_of_insertions (pairs : List (String × Value)) (name : String) (v : Value) :
    let fields := ofPairs pairs
    let table := pairs.foldl (fun t arm => t.insert arm.1 arm.2) Table.empty
    (Kept pairs fields ∧ ofPairs (pairs ++ [(name, v)]) = (insert name v fields).2 ∧
      (insert name v fields).1 = get? name fields ∧ Puts name v fields (insert name v fields).2) ∧
    (Kept pairs table.arms ∧ table.size = (keys pairs).toFinset.card ∧
      table = Table.ofPairs pairs ∧ Puts name v table.arms (table.insert name v).arms) := by
  intro fields table
  have hkept : Kept pairs fields := kept_ofPairs pairs
  have htable : table = Table.ofPairs pairs := Table.foldl_insert pairs Table.empty
  constructor
  · exact ⟨hkept, ofPairs_append_singleton pairs name v, insert_fst name v _, puts_insert name v _⟩
  · rw [htable]
    exact ⟨hkept, hkept.count, rfl, puts_insert name v _⟩

end ValuePattern
