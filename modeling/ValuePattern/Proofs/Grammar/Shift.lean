import ValuePattern.Proofs.Grammar.Basic
import ValuePattern.Proofs.Node.Marks
/-!
Derivations move with their texts. What is derived from a text at one position is derived from it at
any other, with its spans moved along; so all that is derived from a text comes from what is derived
at the beginning.
-/
namespace ValuePattern

theorem Span.shift_from_zero (k n : Nat) : Span.shift k ⟨0, n⟩ = ⟨k, k + n⟩ := by
  simp [Span.shift, Nat.add_comm]

namespace Node

variable {α β γ : Type}

theorem map_map (f : α → β) (g : β → γ) (n : Node α) : (n.map f).map g = n.map (g ∘ f) := by
  induction n using Node.induction with
  | array mark elements isOpen ih =>
    have h : elements.map (map g ∘ map f) = elements.map (map (g ∘ f)) := List.map_congr_left ih
    simp only [map_array, List.map_map, h, Function.comp_apply]
  | object mark pairs isOpen ih =>
    have h (p : Node α × Node α) (hp : p ∈ pairs) :
        (map g (map f p.1), map g (map f p.2)) = (map (g ∘ f) p.1, map (g ∘ f) p.2) := by
      rw [(ih p hp).1, (ih p hp).2]
    simp only [map_object, List.map_map, Function.comp_def, List.map_congr_left h]
  | _ => rfl

theorem map_id (n : Node α) : n.map id = n := by
  induction n using Node.induction with
  | array mark elements isOpen ih =>
    rw [map_array, List.map_congr_left ih, List.map_id']
    rfl
  | object mark pairs isOpen ih =>
    have h (p : Node α × Node α) (hp : p ∈ pairs) : (map id p.1, map id p.2) = p := by
      rw [(ih p hp).1, (ih p hp).2]
    rw [map_object, List.map_congr_left h, List.map_id']
    rfl
  | _ => rfl

theorem shift_shift (m n : Nat) (x : Node Span) : (x.shift m).shift n = x.shift (m + n) := by
  have h : Span.shift n ∘ Span.shift m = Span.shift (m + n) := by
    funext s
    exact s.shift_shift m n
  rw [shift, shift, map_map, h, shift]

theorem shift_zero (x : Node Span) : x.shift 0 = x := map_id x

/-- A key and its value as they stand once `n` characters are put before their text. -/
def shiftPair (n : Nat) (p : Node Span × Node Span) : Node Span × Node Span :=
  (p.1.shift n, p.2.shift n)

theorem shiftPair_shiftPair (m n : Nat) (p : Node Span × Node Span) :
    shiftPair n (shiftPair m p) = shiftPair (m + n) p := by
  simp only [shiftPair, shift_shift]

theorem shift_array (n : Nat) (mark : Span) (elements : List (Node Span)) (isOpen : Bool) :
    shift n (.array mark elements isOpen) =
      .array (mark.shift n) (elements.map (shift n)) isOpen := map_array _ _ _ _

theorem shift_object (n : Nat) (mark : Span) (pairs : List (Node Span × Node Span))
    (isOpen : Bool) :
    shift n (.object mark pairs isOpen) =
      .object (mark.shift n) (pairs.map (shiftPair n)) isOpen := map_object _ _ _ _

theorem isRest_shift (n : Nat) (x : Node Span) : (x.shift n).isRest = x.isRest := isRest_map _ x

end Node

namespace Grammar

open Node Text

/-- What is derived from a text comes from something that is derived from it wherever it stands. -/
def Movable {α : Type} (move : Nat → α → α) (E : List Char → Nat → α → Prop) (t : List Char)
    (n : Nat) (a : α) : Prop := ∃ b, a = move n b ∧ ∀ k, E t k (move k b)

section Entries

variable {α : Type} {move : Nat → α → α} {E : List Char → Nat → α → Prop} {closing : Char}
variable {t : List Char} {n : Nat} {as : List α} {isOpen : Bool}

theorem map_move (hmove : ∀ m n a, move n (move m a) = move (m + n) a) (m n : Nat) (as : List α) :
    (as.map (move m)).map (move n) = as.map (move (n + m)) := by
  rw [List.map_map, Nat.add_comm]
  exact List.map_congr_left fun a _ => hmove m n a

theorem Entries.movable (hmove : ∀ m n a, move n (move m a) = move (m + n) a)
    (h : Entries (Movable move E) t n as isOpen) :
    ∃ bs : List α, as = bs.map (move n) ∧ ∀ k, Entries E t k (bs.map (move k)) isOpen := by
  induction h with
  | last ha =>
    obtain ⟨b, rfl, hb⟩ := ha
    exact ⟨[b], rfl, fun k => .last (hb k)⟩
  | rest => exact ⟨[], rfl, fun _ => .rest⟩
  | @cons t w u r n a as isOpen ha hw hu _ ih =>
    obtain ⟨b, rfl, hb⟩ := ha
    obtain ⟨bs, rfl, hbs⟩ := ih
    refine ⟨b :: bs.map (move (t ++ w ++ ',' :: u).length), ?_, fun k => ?_⟩
    · rw [List.map_cons, map_move hmove]
    · rw [List.map_cons, map_move hmove]
      exact .cons (hb k) hw hu (hbs _)

theorem Body.movable (hmove : ∀ m n a, move n (move m a) = move (m + n) a)
    (h : Body closing (Movable move E) t n as isOpen) :
    ∃ bs : List α, as = bs.map (move n) ∧ ∀ k, Body closing E t k (bs.map (move k)) isOpen := by
  cases h with
  | empty hw => exact ⟨[], rfl, fun _ => .empty hw⟩
  | @entries w t u n as isOpen hw he hu =>
    obtain ⟨bs, rfl, hbs⟩ := he.movable hmove
    refine ⟨bs.map (move w.length), (map_move hmove _ _ bs).symm, fun k => ?_⟩
    rw [map_move hmove]
    exact .entries hw (hbs _) hu
  | @trailing w t u v n as hw he hu hv =>
    obtain ⟨bs, rfl, hbs⟩ := he.movable hmove
    refine ⟨bs.map (move w.length), (map_move hmove _ _ bs).symm, fun k => ?_⟩
    rw [map_move hmove]
    exact .trailing hw (hbs _) hu hv

end Entries

section Values

variable {t : List Char} {n : Nat} {s : Span} {x key : Node Span} {p : Node Span × Node Span}

theorem IsLiteral.movable (h : IsLiteral t ⟨n, n + t.length⟩ x) :
    ∃ y : Node Span, x = y.shift n ∧ ∀ k, IsLiteral t ⟨k, k + t.length⟩ (y.shift k) := by
  have moved {s : Span} {x : Node Span} (h : IsLiteral t s x) (f : Span → Span) :
      IsLiteral t (f s) (x.map f) := by
    cases h with
    | trueWord => exact .trueWord
    | falseWord => exact .falseWord
    | nullWord => exact .nullWord
    | missingWord => exact .missingWord
    | number hx => exact .number hx
  have onlyMark {s : Span} {x : Node Span} (h : IsLiteral t s x) : x.map (fun _ => s) = x := by
    cases h <;> rfl
  refine ⟨x.map fun _ => ⟨0, t.length⟩, ?_, fun k => ?_⟩
  · rw [shift, map_map, Function.comp_def, Span.shift_from_zero, onlyMark h]
  · rw [shift, map_map, Function.comp_def, Span.shift_from_zero]
    exact moved h fun _ => ⟨k, k + t.length⟩

theorem IsKey.movable (h : IsKey t n key) : Movable shift IsKey t n key := by
  have moved (k : Nat) (name : String) :
      shift k (.string ⟨0, t.length⟩ name) = .string ⟨k, k + t.length⟩ name := by
    rw [← Span.shift_from_zero]
    rfl
  cases h with
  | @quoted name hq =>
    refine ⟨.string ⟨0, t.length⟩ name, (moved n name).symm, fun k => ?_⟩
    rw [moved]
    exact .quoted hq
  | bare ht hd hs hr =>
    refine ⟨.string ⟨0, t.length⟩ (String.ofList t), (moved n _).symm, fun k => ?_⟩
    rw [moved]
    exact .bare ht hd hs hr

theorem IsContent.movable {V W : List Char → Nat → Node Span → Prop}
    (hV : ∀ {t n x}, V t n x → Movable shift W t n x) (h : IsContent V t n x) :
    Movable shift (IsContent W) t n x := by
  cases h with
  | value hx =>
    obtain ⟨y, rfl, hy⟩ := hV hx
    exact ⟨y, rfl, fun k => .value (hy k)⟩
  | comma =>
    have moved (k : Nat) : shift k (.string ⟨0, 1⟩ ",") = .string ⟨k, k + 1⟩ "," := by
      rw [← Span.shift_from_zero]
      rfl
    refine ⟨.string ⟨0, 1⟩ ",", (moved n).symm, fun k => ?_⟩
    rw [moved]
    exact .comma

theorem IsField.movable {V W : List Char → Nat → Node Span → Prop}
    (hV : ∀ {t n x}, V t n x → Movable shift W t n x) (h : IsField V t n p) :
    Movable shiftPair (IsField W) t n p := by
  cases h with
  | @intro k w u v n key x hkey hw hempty hu hx =>
    obtain ⟨key₀, rfl, hkeys⟩ := hkey.movable
    obtain ⟨y, rfl, hy⟩ := hx.movable hV
    refine ⟨(key₀, y.shift (k ++ w ++ ':' :: u).length), ?_, fun m => ?_⟩
    · rw [shiftPair, shift_shift, Nat.add_comm]
    · rw [shiftPair, shift_shift, Nat.add_comm]
      exact .intro (hkeys m) hw hempty hu (hy _)

/-- The tree that is derived from a text is the tree derived at the beginning, moved. -/
theorem IsValue.movable (h : IsValue t n x) : Movable shift IsValue t n x := by
  refine IsValue.induction (motive := Movable shift IsValue) ?string ?literal ?rest ?array ?object h
  case string =>
    intro t n text hq
    have moved (k : Nat) :
        shift k (.string ⟨0, t.length⟩ text) = .string ⟨k, k + t.length⟩ text := by
      rw [← Span.shift_from_zero]
      rfl
    refine ⟨_, (moved n).symm, fun k => ?_⟩
    rw [moved]
    exact .string hq
  case literal =>
    intro t n x hl
    obtain ⟨y, rfl, hy⟩ := hl.movable
    exact ⟨y, rfl, fun k => .literal (hy k)⟩
  case rest =>
    intro n
    have moved (k : Nat) :
        shift k (.rest ⟨0, restMarker.length⟩) = .rest ⟨k, k + restMarker.length⟩ := by
      rw [← Span.shift_from_zero]
      rfl
    refine ⟨_, (moved n).symm, fun k => ?_⟩
    rw [moved]
    exact .rest
  case array =>
    intro t n elements isOpen hbody hrest
    obtain ⟨bs, rfl, hbs⟩ := (hbody.imp fun _ _ _ _ hx => hx.2).movable shift_shift
    refine ⟨.array ⟨0, ('[' :: t).length⟩ (bs.map (shift 1)) isOpen, ?_, fun k => ?_⟩
    · rw [shift_array, Span.shift_from_zero, map_move shift_shift]
    · rw [shift_array, Span.shift_from_zero, map_move shift_shift]
      refine .array (hbs _) fun x hx => ?_
      obtain ⟨b, hb, rfl⟩ := List.mem_map.mp hx
      rw [isRest_shift, ← isRest_shift (n + 1)]
      exact hrest _ (List.mem_map_of_mem hb)
  case object =>
    intro t n pairs isOpen hbody
    obtain ⟨bs, rfl, hbs⟩ :=
      (hbody.imp fun _ _ _ _ hp => hp.movable fun hx => hx.2).movable shiftPair_shiftPair
    refine ⟨.object ⟨0, ('{' :: t).length⟩ (bs.map (shiftPair 1)) isOpen, ?_, fun k => ?_⟩
    · rw [shift_object, Span.shift_from_zero, map_move shiftPair_shiftPair]
    · rw [shift_object, Span.shift_from_zero, map_move shiftPair_shiftPair]
      exact .object (hbs _)

end Values

end Grammar

end ValuePattern
