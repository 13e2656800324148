import Mathlib.Data.Finset.Max
import Mathlib.Data.Prod.Lex

namespace ProductionStack.ConsistentHash

variable {Node Point : Type} [LinearOrder Point]

/-- Every node owns some points of the ring, and no point has two owners. -/
structure Placement (Node Point : Type) where
  points : Node → Finset Point
  nonempty : ∀ n, (points n).Nonempty
  owner_unique : ∀ m n p, p ∈ points m → p ∈ points n → m = n

/-- The place of a point on a walk around the ring that starts at h. -/
def rank (h p : Point) : Bool ×ₗ Point := toLex (decide (p < h), p)

def FirstOwner (P : Placement Node Point) (nodes : Finset Node) (h : Point) (n : Node) : Prop :=
  n ∈ nodes ∧ ∃ p ∈ P.points n, ∀ m ∈ nodes, ∀ q ∈ P.points m, rank h p ≤ rank h q

theorem rank_injective (h : Point) : Function.Injective (rank h) := by
  intro p q hpq
  have := toLex.injective hpq
  simpa using congrArg Prod.snd this

/-- Two node sets that each contain the other's first owner have the same one:
whichever of the two points comes first on the walk is first for both. -/
theorem firstOwner_mutual {P : Placement Node Point} {E₁ E₂ : Finset Node} {h : Point} {u₁ u₂ : Node}
    (h₁ : FirstOwner P E₁ h u₁) (h₂ : FirstOwner P E₂ h u₂) (h₁₂ : u₁ ∈ E₂) (h₂₁ : u₂ ∈ E₁) : u₁ = u₂ := by
  obtain ⟨-, p, hp, hpmin⟩ := h₁
  obtain ⟨-, q, hq, hqmin⟩ := h₂
  have hpq : rank h p = rank h q := le_antisymm (hpmin u₂ h₂₁ q hq) (hqmin u₁ h₁₂ p hp)
  have heq : p = q := rank_injective h hpq
  subst heq
  exact P.owner_unique u₁ u₂ p hp hq

theorem firstOwner_unique {P : Placement Node Point} {E : Finset Node} {h : Point} {u₁ u₂ : Node}
    (h₁ : FirstOwner P E h u₁) (h₂ : FirstOwner P E h u₂) : u₁ = u₂ :=
  firstOwner_mutual h₁ h₂ h₁.1 h₂.1

end ProductionStack.ConsistentHash
