/-!
Parts of trees. What stands right below a tree is given by a function; the parts of a tree are the
tree itself and the parts of the trees below it. What holds of every part holds at every depth.
-/
namespace ValuePattern.Parts

variable {τ : Type} {below : τ → List τ} {P : τ → Prop} {n : τ}

/-- One tree is a part of another. -/
inductive IsPart (below : τ → List τ) : τ → τ → Prop
  | self (n : τ) : IsPart below n n
  | child {m x n : τ} : x ∈ below n → IsPart below m x → IsPart below m n

/-- A property of all parts of a tree. -/
def Everywhere (below : τ → List τ) (P : τ → Prop) (n : τ) : Prop := ∀ m, IsPart below m n → P m

theorem everywhere_iff : Everywhere below P n ↔ P n ∧ ∀ x ∈ below n, Everywhere below P x := by
  constructor
  · intro h
    exact ⟨h n (.self n), fun x hx m hm => h m (.child hx hm)⟩
  · rintro ⟨hself, hbelow⟩ m hm
    cases hm with
    | self => exact hself
    | child hx hm => exact hbelow _ hx m hm

/-- A tree with nothing below it has no part but itself. -/
theorem everywhere_leaf (h : below n = []) : Everywhere below P n ↔ P n := by
  simp [everywhere_iff (n := n), h]

end ValuePattern.Parts
