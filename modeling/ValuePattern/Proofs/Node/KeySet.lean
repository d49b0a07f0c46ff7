import Mathlib
import ValuePattern.Proofs.Entries.Names
import ValuePattern.Proofs.Grammar.Compile
import ValuePattern.Proofs.Value.Parts
import ValuePattern.Table
/-!
What an object pattern says of the keys of an object. It is read as a set of names: an object has
exactly these keys, or at least these if the pattern is open. Matching only counts, the fields of the
object against the pairs of the pattern, and looks up the names of the pairs. That comes to the same
where no name is written twice; a name that is written twice is looked up twice and counted twice.
-/
namespace ValuePattern

open Grammar

namespace Node

variable {α : Type} {pairs : List (Node α × Node α)} {isOpen : Bool} {actual declared : Nat}
variable {fields : List (String × Value)}

/-- The names that the pairs of a pattern write, as often as they write them. -/
def fieldNames (pairs : List (Node α × Node α)) : List String :=
  pairs.map fun pair => pair.1.keyName

/-- Every pair finds a field under its name that has the form of its value. -/
def Fulfilled (pairs : List (Node α × Node α)) (fields : List (String × Value)) : Prop :=
  ∀ pair ∈ pairs, ∃ v, Entries.get? pair.1.keyName fields = some v ∧ pair.2.accepts v = .ok true

/-- An object has exactly the keys that a pattern names, or at least those if it is open. -/
def HasKeys (pairs : List (Node α × Node α)) (isOpen : Bool) (fields : List (String × Value)) :
    Prop :=
  fieldNames pairs ⊆ Entries.keys fields ∧
    (isOpen = false → Entries.keys fields ⊆ fieldNames pairs)

/-- The reading of an object pattern: an object with these keys, whose fields have these forms. -/
def Describes (pairs : List (Node α × Node α)) (isOpen : Bool) (fields : List (String × Value)) :
    Prop := HasKeys pairs isOpen fields ∧ Fulfilled pairs fields

theorem sizeFits_iff :
    sizeFits actual declared isOpen = true ↔
      declared ≤ actual ∧ (isOpen = false → actual ≤ declared) := by
  cases isOpen <;> simp [sizeFits] <;> omega

theorem acceptsFields_iff : acceptsFields pairs fields = .ok true ↔ Fulfilled pairs fields := by
  induction pairs with
  | nil => simp [acceptsFields, Fulfilled]
  | cons pair pairs ih =>
    obtain ⟨key, node⟩ := pair
    rw [Fulfilled, List.forall_mem_cons, ← Fulfilled, ← ih, acceptsFields]
    cases Entries.get? key.keyName fields with
    | none => simp
    | some v =>
      simp only [Option.some.injEq, exists_eq_left']
      split
      · rename_i haccepts
        simp [haccepts]
      · rename_i hstop
        exact ⟨fun h => absurd h hstop, fun h => h.1⟩

/-- Matching an object is a count and a look-up of every name. -/
theorem accepts_object_iff {mark : α} :
    accepts (object mark pairs isOpen) (.object fields) = .ok true ↔
      sizeFits fields.length pairs.length isOpen = true ∧ Fulfilled pairs fields := by
  rw [accepts]
  split
  · rename_i hsize
    rw [acceptsFields_iff, and_iff_right hsize]
  · rename_i hsize
    simp [hsize]

theorem Fulfilled.fieldNames_subset (h : Fulfilled pairs fields) :
    fieldNames pairs ⊆ Entries.keys fields := by
  intro name hname
  obtain ⟨pair, hpair, rfl⟩ := List.mem_map.mp hname
  obtain ⟨v, hv, -⟩ := h pair hpair
  exact Entries.mem_keys_iff.mpr ⟨v, hv⟩

section Counting

variable {names keys : List String}

theorem length_dedup_le (h : names ⊆ keys) : names.dedup.length ≤ keys.length :=
  (List.subperm_of_subset names.nodup_dedup fun _ hname => h (List.mem_dedup.mp hname)).length_le

theorem length_le_dedup (hkeys : keys.Nodup) (h : keys ⊆ names) :
    keys.length ≤ names.dedup.length :=
  (List.subperm_of_subset hkeys fun _ hkey => List.mem_dedup.mpr (h hkey)).length_le

/-- Distinct keys among which all names are, and which are no more than the names without
repetitions, are those names. -/
theorem subset_of_length_le (hsub : names ⊆ keys) (hlen : keys.length ≤ names.dedup.length) :
    keys ⊆ names := by
  have hperm : names.dedup.Perm keys := by
    refine List.Subperm.perm_of_length_le (List.subperm_of_subset names.nodup_dedup ?_) hlen
    exact fun _ hname => hsub (List.mem_dedup.mp hname)
  exact fun _ hkey => List.mem_dedup.mp (hperm.mem_iff.mpr hkey)

theorem length_dedup_lt (h : ¬ names.Nodup) : names.dedup.length < names.length := by
  refine lt_of_le_of_ne names.dedup_sublist.length_le fun heq => h ?_
  exact List.dedup_eq_self.mp (names.dedup_sublist.eq_of_length heq)

end Counting

/-- The reading of a pattern is the same count and look-up, but with every name counted once. -/
theorem describes_iff (hfields : (Entries.keys fields).Nodup) :
    Describes pairs isOpen fields ↔
      sizeFits fields.length (fieldNames pairs).dedup.length isOpen = true ∧
        Fulfilled pairs fields := by
  rw [Describes, HasKeys, sizeFits_iff, ← Entries.length_keys]
  refine and_congr_left fun h => ?_
  have hsub := h.fieldNames_subset
  constructor
  · rintro ⟨-, hclosed⟩
    exact ⟨length_dedup_le hsub, fun hopen => length_le_dedup hfields (hclosed hopen)⟩
  · rintro ⟨-, hlen⟩
    exact ⟨hsub, fun hopen => subset_of_length_le hsub (hlen hopen)⟩

/-- An object that has all the fields that a pattern asks for is one that the pattern describes, with
fields besides that can be left out. -/
theorem Fulfilled.exists_describes (isOpen : Bool) (h : Fulfilled pairs fields)
    (hplain : (Value.object fields).Plain) :
    ∃ fields', (Value.object fields').Plain ∧ Describes pairs isOpen fields' ∧
      fields'.length ≤ (fieldNames pairs).dedup.length := by
  obtain ⟨hnodup, hbelow⟩ := Value.plain_object.mp hplain
  let named (name : String) : Bool := decide (name ∈ fieldNames pairs)
  have hkeys : Entries.keys (fields.filter fun field => named field.1) ⊆ fieldNames pairs := by
    intro name hname
    rw [Entries.keys_filter] at hname
    exact of_decide_eq_true (List.mem_filter.mp hname).2
  have hdistinct : (Entries.keys (fields.filter fun field => named field.1)).Nodup := by
    rw [Entries.keys_filter]
    exact hnodup.filter named
  have hfulfilled : Fulfilled pairs (fields.filter fun field => named field.1) := by
    intro pair hpair
    have hname : pair.1.keyName ∈ fieldNames pairs := List.mem_map.mpr ⟨pair, hpair, rfl⟩
    rw [Entries.get?_filter named (decide_eq_true hname)]
    exact h pair hpair
  refine ⟨fields.filter fun field => named field.1, ?_, ?_, ?_⟩
  · refine Value.plain_object.mpr ⟨hdistinct, fun field hfield => ?_⟩
    exact hbelow field (List.mem_filter.mp hfield).1
  · exact ⟨⟨hfulfilled.fieldNames_subset, fun _ => hkeys⟩, hfulfilled⟩
  · rw [← Entries.length_keys]
    exact length_le_dedup hdistinct hkeys

end Node

namespace Pattern

variable {pairs : List (Node Span × Node Span)} {isOpen : Bool} {fields : List (String × Value)}
variable {p : Pattern} {mark : Span}

theorem accepts_object_iff (hroot : p.root = some (.object mark pairs isOpen)) :
    p.accepts (.object fields) = .ok true ↔
      Node.sizeFits fields.length pairs.length isOpen = true ∧ Node.Fulfilled pairs fields := by
  rw [accepts, hroot]
  exact Node.accepts_object_iff

theorem keys_string_of_compile {source : String} (hcompile : compile source = .ok p)
    (hroot : p.root = some (.object mark pairs isOpen)) :
    ∀ pair ∈ pairs, ∃ mark name, pair.1 = .string mark name := by
  obtain ⟨-, hread⟩ := compile_eq_ok_iff_readRoot.mp hcompile
  rw [hroot] at hread
  obtain ⟨_, _, hx⟩ := exists_isValue_of_readRoot hread
  exact hx.keys_string

/-- A pattern matches the object exactly if it describes it. -/
def MeansKeySet (p : Pattern) (pairs : List (Node Span × Node Span)) (isOpen : Bool)
    (fields : List (String × Value)) : Prop :=
  p.accepts (.object fields) = .ok true ↔ Node.Describes pairs isOpen fields

/-- The two counts differ only in the names that are written more than once. -/
theorem meansKeySet_iff_sizeFits (hroot : p.root = some (.object mark pairs isOpen))
    (hfields : (Entries.keys fields).Nodup) :
    MeansKeySet p pairs isOpen fields ↔ (Node.Fulfilled pairs fields →
      Node.sizeFits fields.length pairs.length isOpen =
        Node.sizeFits fields.length (Node.fieldNames pairs).dedup.length isOpen) := by
  rw [MeansKeySet, accepts_object_iff hroot, Node.describes_iff hfields, and_congr_left_iff]
  exact forall_congr' fun _ => Bool.eq_iff_iff.symm

/-- A pattern with a name that is written twice leaves out an object that it describes, if it
describes any. -/
theorem exists_not_meansKeySet (hroot : p.root = some (.object mark pairs isOpen))
    (hnames : ¬ (Node.fieldNames pairs).Nodup) (hplain : (Value.object fields).Plain)
    (h : Node.Describes pairs isOpen fields) :
    ∃ fields', (Value.object fields').Plain ∧ ¬ MeansKeySet p pairs isOpen fields' := by
  obtain ⟨fields', hplain', hdescribes, hlength⟩ := h.2.exists_describes isOpen hplain
  refine ⟨fields', hplain', fun hmeans => ?_⟩
  have hsize := Node.sizeFits_iff.mp ((accepts_object_iff hroot).mp (hmeans.mpr hdescribes)).1
  have hlt := Node.length_dedup_lt hnames
  have hpairs : (Node.fieldNames pairs).length = pairs.length := List.length_map _
  omega

/-- An object pattern matches an object exactly if its count of pairs comes out like the count of its
names; so it matches just the objects that it describes exactly if it writes no name twice, or
describes no object at all. -/
theorem meansKeySet_iff (source : String) (p : Pattern) (mark : Span)
    (pairs : List (Node Span × Node Span)) (isOpen : Bool) (hcompile : compile source = .ok p)
    (hroot : p.root = some (.object mark pairs isOpen)) :
    (∀ pair ∈ pairs, ∃ mark name, pair.1 = .string mark name) ∧
    (∀ fields, (Value.object fields).Plain →
      (MeansKeySet p pairs isOpen fields ↔ (Node.Fulfilled pairs fields →
        Node.sizeFits fields.length pairs.length isOpen =
          Node.sizeFits fields.length (Node.fieldNames pairs).dedup.length isOpen))) ∧
    ((∀ fields, (Value.object fields).Plain → MeansKeySet p pairs isOpen fields) ↔
      (Node.fieldNames pairs).Nodup ∨
        ∀ fields, (Value.object fields).Plain → ¬ Node.Describes pairs isOpen fields) := by
  refine ⟨keys_string_of_compile hcompile hroot, fun fields hplain => ?_, ?_, ?_⟩
  · exact meansKeySet_iff_sizeFits hroot (Value.plain_object.mp hplain).1
  · intro hmeans
    by_contra hneither
    rw [not_or, not_forall] at hneither
    obtain ⟨hnames, fields, hdescribed⟩ := hneither
    rw [Classical.not_imp, not_not] at hdescribed
    obtain ⟨fields', hplain', hnot⟩ :=
      exists_not_meansKeySet hroot hnames hdescribed.1 hdescribed.2
    exact hnot (hmeans fields' hplain')
  · rintro (hnames | hnone) fields hplain
    · rw [meansKeySet_iff_sizeFits hroot (Value.plain_object.mp hplain).1,
        List.dedup_eq_self.mpr hnames, Node.fieldNames, List.length_map]
      exact fun _ => rfl
    · refine iff_of_false (fun haccepts => ?_) (hnone fields hplain)
      obtain ⟨fields', hplain', hdescribes, -⟩ :=
        ((accepts_object_iff hroot).mp haccepts).2.exists_describes isOpen hplain
      exact hnone fields' hplain' hdescribes

/-- An open pattern with two names describes the objects that it matches. -/
theorem meansKeySet_distinct_names :
    ∃ p mark pairs, compile "\x7ba: null, b: missing, ...\x7d" = .ok p ∧
      p.root = some (.object mark pairs true) ∧
      ∀ fields, (Value.object fields).Plain → MeansKeySet p pairs true fields := by
  let pairs : List (Node Span × Node Span) :=
    [(.string ⟨1, 2⟩ "a", .null ⟨4, 8⟩), (.string ⟨10, 11⟩ "b", .missing ⟨13, 20⟩)]
  have hcompile : compile "\x7ba: null, b: missing, ...\x7d" =
      .ok ⟨"\x7ba: null, b: missing, ...\x7d", some (.object ⟨0, 26⟩ pairs true)⟩ := by cbv
  have hnames : (Node.fieldNames pairs).Nodup := by decide
  exact ⟨_, _, pairs, hcompile, rfl,
    (meansKeySet_iff _ _ _ pairs true hcompile rfl).2.2.mpr (.inl hnames)⟩

/-- A name that is written twice asks for two fields: the object with just this field is not matched,
and one with another field besides is. -/
theorem not_meansKeySet_repeated_name :
    ∃ p mark pairs, compile "\x7ba: null, a: null\x7d" = .ok p ∧
      p.root = some (.object mark pairs false) ∧
      (Value.object [("a", .null)]).Plain ∧ ¬ MeansKeySet p pairs false [("a", .null)] ∧
      (Value.object [("a", .null), ("b", .null)]).Plain ∧
      ¬ MeansKeySet p pairs false [("a", .null), ("b", .null)] := by
  let pairs : List (Node Span × Node Span) :=
    [(.string ⟨1, 2⟩ "a", .null ⟨4, 8⟩), (.string ⟨10, 11⟩ "a", .null ⟨13, 17⟩)]
  have hcompile : compile "\x7ba: null, a: null\x7d" =
      .ok ⟨"\x7ba: null, a: null\x7d", some (.object ⟨0, 18⟩ pairs false)⟩ := by cbv
  have hnull : Value.Plain .null := (Value.everywhere_leaf rfl).mpr ⟨trivial, rfl⟩
  have hnot (fields : List (String × Value)) (hfields : (Entries.keys fields).Nodup)
      (ha : Entries.get? "a" fields = some .null)
      (hsize : Node.sizeFits fields.length 2 false ≠ Node.sizeFits fields.length 1 false) :
      ¬ MeansKeySet ⟨"\x7ba: null, a: null\x7d", some (.object ⟨0, 18⟩ pairs false)⟩ pairs false
        fields := by
    have hfulfilled : Node.Fulfilled pairs fields := by
      rw [Node.Fulfilled, List.forall_mem_cons, List.forall_mem_singleton]
      exact ⟨⟨.null, ha, rfl⟩, ⟨.null, ha, rfl⟩⟩
    rw [meansKeySet_iff_sizeFits rfl hfields]
    exact fun h => hsize (h hfulfilled)
  refine ⟨_, _, pairs, hcompile, rfl, ?_, ?_, ?_, ?_⟩
  · exact Value.plain_object.mpr ⟨by decide, by simp [hnull]⟩
  · exact hnot _ (by decide) rfl (by decide)
  · exact Value.plain_object.mpr ⟨by decide, by simp [hnull]⟩
  · exact hnot _ (by decide) rfl (by decide)

end Pattern

end ValuePattern
