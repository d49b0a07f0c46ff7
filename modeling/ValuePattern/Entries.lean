/-!
Entries under names, in the order in which the names first came. Inserting under a name that is
there already replaces the entry in its place; so names stay distinct, and the last entry given for a
name is the one that is found. Objects and pattern tables are both kept this way.
-/
namespace ValuePattern.Entries

variable {α : Type}

/-- The entry under a name. -/
def get? (name : String) : List (String × α) → Option α
  | [] => none
  | (key, a) :: rest => if key == name then some a else get? name rest

/-- Puts an entry under a name, and gives the entry that it replaces. -/
def insert (name : String) (a : α) : List (String × α) → Option α × List (String × α)
  | [] => (none, [(name, a)])
  | (key, b) :: rest =>
    if key == name then (some b, (key, a) :: rest)
    else
      let (old, changed) := insert name a rest
      (old, (key, b) :: changed)

/-- The entries that come of inserting pairs one after another. -/
def insertAll (entries : List (String × α)) (pairs : List (String × α)) : List (String × α) :=
  pairs.foldl (fun kept (name, a) => (insert name a kept).2) entries

/-- The entries that come of inserting pairs where there were none. -/
def ofPairs (pairs : List (String × α)) : List (String × α) := insertAll [] pairs

/-- The names, in order. -/
def keys (entries : List (String × α)) : List String := entries.map (·.1)

@[simp] theorem get?_nil (name : String) : get? (α := α) name [] = none := rfl

@[simp] theorem insert_nil (name : String) (a : α) : insert name a [] = (none, [(name, a)]) := rfl

@[simp] theorem insert_fst (name : String) (a : α) (entries : List (String × α)) :
    (insert name a entries).1 = get? name entries := by
  induction entries with
  | nil => rfl
  | cons entry rest ih =>
    obtain ⟨key, b⟩ := entry
    by_cases h : key = name <;> simp [insert, get?, h, ih]

theorem get?_insert_self (name : String) (a : α) (entries : List (String × α)) :
    get? name (insert name a entries).2 = some a := by
  induction entries with
  | nil => simp [get?]
  | cons entry rest ih =>
    obtain ⟨key, b⟩ := entry
    by_cases h : key = name <;> simp [insert, get?, h, ih]

theorem get?_insert_of_ne {name other : String} (h : other ≠ name) (a : α)
    (entries : List (String × α)) :
    get? other (insert name a entries).2 = get? other entries := by
  induction entries with
  | nil => simp [get?, Ne.symm h]
  | cons entry rest ih =>
    obtain ⟨key, b⟩ := entry
    by_cases hk : key = name
    · subst hk
      simp [insert, get?, Ne.symm h]
    · simp only [insert, beq_iff_eq, hk, if_false, get?, ih]

/-- Inserting keeps the names, and puts a new one last. -/
theorem keys_insert (name : String) (a : α) (entries : List (String × α)) :
    keys (insert name a entries).2 =
      if name ∈ keys entries then keys entries else keys entries ++ [name] := by
  induction entries with
  | nil => simp [keys]
  | cons entry rest ih =>
    obtain ⟨key, b⟩ := entry
    simp only [keys] at ih
    by_cases h : key = name
    · simp [insert, keys, h]
    · simp only [insert, keys, beq_iff_eq, h, if_false, List.map_cons, ih, List.mem_cons,
        Ne.symm h, false_or]
      split <;> simp [*]

end ValuePattern.Entries
