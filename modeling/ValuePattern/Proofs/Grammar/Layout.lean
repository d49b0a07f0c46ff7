import Mathlib
import ValuePattern.Proofs.Display.Printable
import ValuePattern.Proofs.Grammar.Compile
/-!
How the nodes of a tree lie in the text that it was read from. Every node has a role in the tree around
it, and derives from a text of its own that lies within the text of its parent. So spans are nested,
those of children follow one another with at least one character between them, and a span tells a few
nodes apart: only a bare key can be empty, and of the strings that are values only a comma without
quotes is one character long.
-/
namespace ValuePattern

/-- What a node is to the tree around it. -/
inductive Role where
  | root | element | key | content
  deriving DecidableEq, Repr

namespace Node

variable {α : Type}

/-- The children of a node with their roles. -/
def roles : Node α → List (Role × Node α)
  | array _ elements _ => elements.map fun x => (.element, x)
  | object _ pairs _ => pairs.flatMap fun p => [(.key, p.1), (.content, p.2)]
  | _ => []

/-- A property of all parts of a tree in their roles, the whole tree being the root. -/
def InAllRoles (P : Role → Node α → Prop) (n : Node α) : Prop :=
  Parts.Everywhere (fun m => m.2.roles) (fun m => P m.1 m.2) (.root, n)

/-- The shape of a node that was read from a text. Its span lies in the text, and its children lie
within it, in order and apart. Only a key without characters has an empty span, and a string for a
value is one character long exactly if it is the comma of a field value without quotes. Keys are
strings, elements are no rest markers, and numbers are numbers. -/
structure Shaped (text : List Char) (role : Role) (n : Node Span) : Prop where
  ordered : n.mark.start ≤ n.mark.stop
  bounded : n.mark.stop ≤ text.length
  inside : ∀ x ∈ n.children, n.mark.start < x.mark.start ∧ x.mark.stop < n.mark.stop
  apart : n.children.IsChain fun x y => x.mark.stop < y.mark.start
  isEmpty : n.mark.isEmpty = true → role = .key ∧ n = string n.mark ""
  key : role = .key → ∃ name, n = string n.mark name
  element : role = .element → n.isRest = false
  number : ∀ x, n = number n.mark x → x ≠ .nan
  single : ∀ name, n = string n.mark name → role ≠ .key →
    (n.mark.length = 1 ↔ role = .content ∧ name = "," ∧ n.mark.slice text = [','])

/-- Nodes one behind another, with at least one character between two of them, from a position on and
before another. -/
structure Run (lo hi : Nat) (xs : List (Node Span)) : Prop where
  bounds : ∀ x ∈ xs, lo ≤ x.mark.start ∧ x.mark.start ≤ x.mark.stop ∧ x.mark.stop < hi
  apart : xs.IsChain fun x y => x.mark.stop < y.mark.start

section Run

variable {lo mid hi : Nat} {xs ys : List (Node Span)}

theorem run_nil : Run lo hi [] := ⟨by simp, .nil⟩

theorem run_singleton {x : Node Span} {k : Nat} (hmark : x.mark = ⟨lo, lo + k⟩) :
    Run lo (lo + k + 1) [x] := by
  constructor
  · simp only [List.mem_singleton, forall_eq, hmark]
    omega
  · exact .singleton x

theorem Run.mono {lo' hi' : Nat} (h : Run lo hi xs) (hlo : lo' ≤ lo) (hhi : hi ≤ hi') :
    Run lo' hi' xs := by
  refine ⟨fun x hx => ?_, h.apart⟩
  obtain ⟨hstart, hordered, hstop⟩ := h.bounds x hx
  omega

theorem Run.append (hxs : Run lo mid xs) (hys : Run mid hi ys) (hlo : lo ≤ mid) (hhi : mid ≤ hi) :
    Run lo hi (xs ++ ys) := by
  constructor
  · intro x hx
    rcases List.mem_append.mp hx with hx | hx
    · exact (hxs.mono le_rfl hhi).bounds x hx
    · exact (hys.mono hlo le_rfl).bounds x hx
  · refine List.isChain_append.mpr ⟨hxs.apart, hys.apart, fun x hx y hy => ?_⟩
    obtain ⟨-, -, hstop⟩ := hxs.bounds x (List.mem_of_mem_getLast? hx)
    obtain ⟨hstart, -, -⟩ := hys.bounds y (List.mem_of_mem_head? hy)
    omega

end Run

end Node

namespace Grammar

open Node Text Parts

section Entries

variable {α : Type} {closing : Char} {E : List Char → Nat → α → Prop} (nodes : α → List (Node Span))
variable {t : List Char} {n : Nat} {as : List α} {isOpen : Bool}

/-- The nodes of entries follow one another, with a comma between those of two entries. -/
theorem Entries.run (h : ∀ t n a, E t n a → Run n (n + t.length + 1) (nodes a))
    (he : Entries E t n as isOpen) : Run n (n + t.length + 1) (as.flatMap nodes) := by
  induction he with
  | last ha => simpa using h _ _ _ ha
  | rest => exact run_nil
  | @cons t w u r n a as isOpen ha _ _ _ ih =>
    have hfirst := h t n a ha
    have hlater : Run (n + t.length + 1) (n + (t ++ w ++ ',' :: u ++ r).length + 1)
        (as.flatMap nodes) := by
      refine ih.mono ?_ ?_ <;> simp only [List.length_append, List.length_cons] <;> omega
    refine hfirst.append hlater (by omega) ?_
    simp only [List.length_append, List.length_cons]
    omega

/-- The nodes of entries end before the closing character. -/
theorem Body.run (h : ∀ t n a, E t n a → Run n (n + t.length + 1) (nodes a))
    (hb : Body closing E t n as isOpen) : Run n (n + t.length) (as.flatMap nodes) := by
  cases hb with
  | empty _ => exact run_nil
  | entries hw he hu =>
    refine (he.run nodes h).mono (Nat.le_add_right _ _) ?_
    simp only [List.length_append, List.length_singleton]
    omega
  | trailing hw he hu hv =>
    refine (he.run nodes h).mono (Nat.le_add_right _ _) ?_
    simp only [List.length_append, List.length_cons]
    omega

end Entries

section Derivations

variable {t : List Char} {n : Nat} {x key : Node Span} {role : Role}

theorem IsKey.mark_eq (h : IsKey t n key) : key.mark = ⟨n, n + t.length⟩ := by
  cases h <;> rfl

theorem IsContent.mark_eq (h : IsContent IsValue t n x) : x.mark = ⟨n, n + t.length⟩ := by
  cases h with
  | value h => exact h.mark_eq
  | comma => rfl

theorem IsQuoted.two_le_length {text : String} (h : IsQuoted t text) : 2 ≤ t.length := by
  cases h
  simp

/-- The key and the content of a field, with a colon between them. -/
theorem IsField.run {p : Node Span × Node Span} (h : IsField IsValue t n p) :
    Run n (n + t.length + 1) [p.1, p.2] := by
  cases h with
  | @intro k w u v n key x hkey _ _ _ hcontent =>
    have hfirst : Run n (n + k.length + 1) [key] := run_singleton hkey.mark_eq
    have hsecond : Run (n + k.length + 1) (n + (k ++ w ++ ':' :: u ++ v).length + 1) [x] := by
      refine (run_singleton hcontent.mark_eq).mono ?_ ?_ <;>
        simp only [List.length_append, List.length_cons] <;> omega
    refine hfirst.append hsecond (by omega) ?_
    simp only [List.length_append, List.length_cons]
    omega

/-- The children of a value lie strictly within it, one behind another. -/
theorem IsValue.run (h : IsValue t n x) : Run (n + 1) (n + t.length) x.children := by
  cases h with
  | literal hl => cases hl <;> exact run_nil
  | @array t n elements isOpen hbody _ =>
    have hrun := hbody.run (fun x => [x]) fun _ _ _ hx => run_singleton hx.mark_eq
    rw [List.flatMap_singleton', Nat.add_assoc, Nat.add_comm 1] at hrun
    exact hrun
  | @object t n pairs isOpen hbody =>
    have hrun := hbody.run (fun p => [p.1, p.2]) fun _ _ _ hp => hp.run
    rw [Nat.add_assoc, Nat.add_comm 1] at hrun
    exact hrun
  | _ => exact run_nil

/-- What a node in a role derives from. -/
def Derives : Role → List Char → Nat → Node Span → Prop
  | .root, t, n, x => IsValue t n x
  | .element, t, n, x => IsValue t n x ∧ x.isRest = false
  | .key, t, n, x => IsKey t n x
  | .content, t, n, x => IsContent IsValue t n x

theorem Derives.mark_eq (h : Derives role t n x) : x.mark = ⟨n, n + t.length⟩ := by
  cases role with
  | root => exact IsValue.mark_eq h
  | element => exact h.1.mark_eq
  | key => exact IsKey.mark_eq h
  | content => exact IsContent.mark_eq h

/-- A node in a role is a value, a key, or a comma for a field value. -/
theorem Derives.cases (h : Derives role t n x) :
    (role ≠ .key ∧ (role = .element → x.isRest = false) ∧ IsValue t n x) ∨
      (role = .key ∧ IsKey t n x) ∨
      (role = .content ∧ t = [','] ∧ x = .string ⟨n, n + 1⟩ ",") := by
  cases role with
  | root => exact .inl ⟨by simp, by simp, h⟩
  | element => exact .inl ⟨by simp, fun _ => h.2, h.1⟩
  | key => exact .inr (.inl ⟨rfl, h⟩)
  | content =>
    cases h with
    | value h => exact .inl ⟨by simp, by simp, h⟩
    | comma => exact .inr (.inr ⟨rfl, rfl, rfl⟩)

/-- The text of a child stands in the text of its parent. -/
theorem Derives.exists_append_of_mem {m : Role × Node Span} (h : Derives role t n x)
    (hm : m ∈ x.roles) :
    ∃ before u behind, t = before ++ u ++ behind ∧ Derives m.1 u (n + before.length) m.2 := by
  have position (before : List Char) (c : Char) :
      n + (c :: before).length = n + 1 + before.length := by
    simp only [List.length_cons]
    omega
  obtain ⟨-, -, h⟩ | ⟨-, h⟩ | ⟨-, -, rfl⟩ := h.cases
  · cases h with
    | string _ => simp [roles] at hm
    | literal hl => cases hl <;> simp [roles] at hm
    | rest => simp [roles] at hm
    | array hbody hrest =>
      obtain ⟨y, hy, rfl⟩ := List.mem_map.mp hm
      obtain ⟨before, u, behind, rfl, hu⟩ := hbody.exists_append_of_mem y hy
      exact ⟨'[' :: before, u, behind, by simp, by rw [position]; exact ⟨hu, hrest y hy⟩⟩
    | object hbody =>
      obtain ⟨p, hp, hm⟩ := List.mem_flatMap.mp hm
      obtain ⟨before, u, behind, rfl, hfield⟩ := hbody.exists_append_of_mem p hp
      cases hfield with
      | @intro k w z v _ _ _ hkey _ _ _ hcontent =>
        simp only [List.mem_cons, List.not_mem_nil, or_false] at hm
        rcases hm with rfl | rfl
        · refine ⟨'{' :: before, k, w ++ ':' :: z ++ v ++ behind, by simp, ?_⟩
          rw [position]
          exact hkey
        · refine ⟨'{' :: (before ++ (k ++ w ++ ':' :: z)), v, behind, by simp, ?_⟩
          rw [position, List.length_append, ← Nat.add_assoc]
          exact hcontent
  · cases h <;> simp [roles] at hm
  · simp [roles] at hm

/-- The text of a part stands in the text of the tree. -/
theorem Derives.exists_append_of_isPart {m : Role × Node Span}
    (hm : IsPart (fun m : Role × Node Span => m.2.roles) m (role, x)) (h : Derives role t n x) :
    ∃ before u behind, t = before ++ u ++ behind ∧ Derives m.1 u (n + before.length) m.2 := by
  generalize hwhole : (role, x) = whole at hm
  induction hm generalizing role t n x with
  | self =>
    subst hwhole
    exact ⟨[], t, [], by simp, h⟩
  | child hy _ ih =>
    subst hwhole
    obtain ⟨before, u, behind, rfl, hu⟩ := h.exists_append_of_mem hy
    obtain ⟨before', v, behind', rfl, hv⟩ := ih hu rfl
    refine ⟨before ++ before', v, behind' ++ behind, by simp, ?_⟩
    rwa [List.length_append, ← Nat.add_assoc]

/-- Of the values, only a string in quotes is a string, and its text has the quotes. -/
theorem IsValue.two_le_length {name : String} {mark : Span} (h : IsValue t n (.string mark name)) :
    2 ≤ t.length := by
  cases h with
  | string hq => exact hq.two_le_length
  | literal hl => cases hl

theorem IsValue.ne_nan {y : Double} {mark : Span} (h : IsValue t n (.number mark y)) : y ≠ .nan := by
  cases h with
  | literal hl => exact hl.printable.2.1

/-- A node is shaped by what it derives from. -/
theorem Derives.shaped {before behind : List Char} (h : Derives role t n x)
    (hn : before.length = n) : Shaped (before ++ t ++ behind) role x := by
  have hmark := h.mark_eq
  have hordered : x.mark.start ≤ x.mark.stop := by
    rw [hmark]
    exact Nat.le_add_right n t.length
  have hbounded : x.mark.stop ≤ (before ++ t ++ behind).length := by
    rw [hmark, ← hn, List.length_append, List.length_append]
    exact Nat.le_add_right _ _
  have hlength : x.mark.length = t.length := by
    rw [hmark, Span.length, Nat.add_sub_cancel_left]
  have hslice : x.mark.slice (before ++ t ++ behind) = t := by
    rw [hmark, ← hn]
    exact Span.slice_append before t behind
  have hempty (h : x.mark.isEmpty = true) : t = [] := by
    simpa [hmark, Span.isEmpty] using h
  -- a value, a key, or the comma of a field value
  obtain ⟨hrole, helement, hx⟩ | ⟨rfl, hkey⟩ | ⟨rfl, rfl, rfl⟩ := h.cases
  · have hrun := hx.run
    refine ⟨hordered, hbounded, fun y hy => ?_, hrun.apart, fun he => ?_, fun hr => absurd hr hrole,
      helement, fun y hy => ?_, fun name hname _ => ?_⟩
    · obtain ⟨hstart, -, hstop⟩ := hrun.bounds y hy
      rw [hmark]
      exact ⟨hstart, hstop⟩
    · obtain ⟨c, u, rfl, -⟩ := hx.startsWith
      exact absurd (hempty he) (List.cons_ne_nil c u)
    · rw [hy] at hx
      exact hx.ne_nan
    · rw [hname] at hx
      have htwo := hx.two_le_length
      rw [hlength, hslice]
      constructor
      · intro hone
        omega
      · rintro ⟨-, -, rfl⟩
        simp at htwo
  · obtain ⟨mark, name, rfl⟩ := hkey.eq_string
    refine ⟨hordered, hbounded, by simp [children], .nil, fun he => ⟨rfl, ?_⟩, fun _ => ⟨name, rfl⟩,
      by simp, by simp, fun _ _ hr => absurd rfl hr⟩
    obtain rfl := hempty he
    cases hkey with
    | quoted hq => exact absurd hq.two_le_length (by simp)
    | bare _ _ _ _ => rfl
  · refine ⟨hordered, hbounded, by simp [children], .nil, fun he => ?_, by simp, by simp, by simp,
      fun name hname _ => ?_⟩
    · exact absurd (hempty he) (by simp)
    · obtain rfl : "," = name := by simpa [mark] using hname
      rw [hlength, hslice]
      simp

end Derivations

end Grammar

namespace Node

variable {α : Type} {P : Role → Node α → Prop} {Q : Node α → Prop} {m n : Node α}

theorem exists_mem_roles (h : m ∈ n.children) : ∃ role, (role, m) ∈ n.roles := by
  cases n with
  | array mark elements isOpen => exact ⟨.element, List.mem_map.mpr ⟨m, h, rfl⟩⟩
  | object mark pairs isOpen =>
    obtain ⟨p, hp, hm⟩ := List.mem_flatMap.mp h
    simp only [List.mem_cons, List.not_mem_nil, or_false] at hm
    rcases hm with rfl | rfl
    · exact ⟨.key, List.mem_flatMap.mpr ⟨p, hp, by simp⟩⟩
    · exact ⟨.content, List.mem_flatMap.mpr ⟨p, hp, by simp⟩⟩
  | _ => simp [children] at h

/-- A part of a tree is a part in some role. -/
theorem exists_isPart_roles (h : Parts.IsPart children m n) (role : Role) :
    ∃ role', Parts.IsPart (fun m : Role × Node α => m.2.roles) (role', m) (role, n) := by
  induction h generalizing role with
  | self => exact ⟨role, .self _⟩
  | child hy _ ih =>
    obtain ⟨role', hy'⟩ := exists_mem_roles hy
    obtain ⟨role'', hm⟩ := ih role'
    exact ⟨role'', .child hy' hm⟩

theorem InAllRoles.everywhere (h : InAllRoles P n) (hPQ : ∀ role m, P role m → Q m) :
    Everywhere Q n := by
  intro m hm
  obtain ⟨role, hpart⟩ := exists_isPart_roles hm .root
  exact hPQ role m (h _ hpart)

theorem equalElements_self [BEq α] {elements : List (Node α)}
    (h : ∀ x ∈ elements, x.equal x = true) : equalElements elements elements = true := by
  induction elements with
  | nil => rfl
  | cons x xs ih =>
    obtain ⟨hx, hxs⟩ := List.forall_mem_cons.mp h
    rw [equalElements, hx, ih hxs]
    rfl

theorem equalPairs_self [BEq α] {pairs : List (Node α × Node α)}
    (h : ∀ p ∈ pairs, p.1.equal p.1 = true ∧ p.2.equal p.2 = true) :
    equalPairs pairs pairs = true := by
  induction pairs with
  | nil => rfl
  | cons p ps ih =>
    obtain ⟨⟨hkey, hvalue⟩, hps⟩ := List.forall_mem_cons.mp h
    rw [equalPairs, hkey, hvalue, ih hps]
    rfl

/-- A tree without NaN equals itself. -/
theorem equal_self [BEq α] [ReflBEq α]
    (h : Everywhere (fun m => ∀ x, m = number m.mark x → x ≠ .nan) n) : n.equal n = true := by
  induction n using Node.induction with
  | array mark elements isOpen ih =>
    obtain ⟨-, h⟩ := everywhere_array.mp h
    rw [equal, equalElements_self fun x hx => ih x hx (h x hx)]
    simp
  | object mark pairs isOpen ih =>
    obtain ⟨-, h⟩ := everywhere_object.mp h
    rw [equal, equalPairs_self fun p hp => ⟨(ih p hp).1 (h p hp).1, (ih p hp).2 (h p hp).2⟩]
    simp
  | number mark x =>
    cases x with
    | nan => exact absurd rfl (h.self .nan rfl)
    | number negative size => simp [equal, BEq.beq, Double.equal]
  | _ => simp [equal]

end Node

namespace Pattern

open Grammar Node

/-- Every tree that was read has its shape at every depth, and so the pattern equals itself. -/
theorem shaped_of_compile (source : String) (p : Pattern) (h : compile source = .ok p) :
    (∀ root, p.root = some root → InAllRoles (Shaped source.toList) root) ∧ (p == p) = true := by
  have hshaped (root : Node Span) (hroot : p.root = some root) :
      InAllRoles (Shaped source.toList) root := by
    have hpattern := isPattern_of_readRoot (compile_eq_ok_iff_readRoot.mp h).2
    rw [hroot] at hpattern
    generalize source.toList = text at hpattern ⊢
    cases hpattern with
    | @value w t u _ _ hvalue _ =>
      intro m hm
      have hwhole : Derives .root t w.length root := hvalue
      obtain ⟨before, v, behind, rfl, hv⟩ := hwhole.exists_append_of_isPart hm
      have hlength : (w ++ before).length = w.length + before.length := List.length_append
      have hpart : Shaped (w ++ before ++ v ++ (behind ++ u)) m.1 m.2 := hv.shaped hlength
      simpa using hpart
  refine ⟨hshaped, ?_⟩
  have hself : (p == p) = (p.source == p.source && p.root == p.root) := rfl
  rw [hself]
  cases hroot : p.root with
  | none => simp
  | some root =>
    have hequal : (root == root) = true :=
      equal_self ((hshaped root hroot).everywhere fun _ _ hm => hm.number)
    simp [hequal]

/-- An empty key, a comma without quotes and one with quotes all have their shapes. -/
theorem shaped_of_compile_commas :
    let source := "\x7b: ,, 'a': [null, \",\"]\x7d"
    let elements : List (Node Span) := [.null ⟨12, 16⟩, .string ⟨18, 21⟩ ","]
    let root : Node Span := .object ⟨0, 23⟩ [(.string ⟨1, 1⟩ "", .string ⟨3, 4⟩ ","),
      (.string ⟨6, 9⟩ "a", .array ⟨11, 22⟩ elements false)] false
    compile source = .ok ⟨source, some root⟩ ∧ InAllRoles (Shaped source.toList) root := by
  intro source elements root
  have hcompile : compile source = .ok ⟨source, some root⟩ := by cbv
  exact ⟨hcompile, (shaped_of_compile source _ hcompile).1 root rfl⟩

end Pattern

end ValuePattern
