import Criteria.Proofs.Spec.Tree
import Mathlib.Data.List.Basic

/-! Positions in a specification: the nodes of the tree, each with those around it. -/

set_option autoImplicit false

namespace Criteria

namespace Spec

variable {Leaf : Type}

/-- A node of a tree and the nodes that it is nested in, the innermost first. -/
structure Position (Leaf : Type) where
  ancestors : List (Spec Leaf)
  node : Spec Leaf

/-- The same position, in a tree that is nested in a further node. -/
def Position.below (outer : Spec Leaf) (position : Position Leaf) : Position Leaf :=
  { position with ancestors := position.ancestors ++ [outer] }

mutual
/-- The positions in a tree, each before those nested in it. -/
def positions : Spec Leaf → List (Position Leaf)
  | .allOf first rest =>
    ⟨[], .allOf first rest⟩ ::
      (first.positions ++ positionsOfEach rest).map (Position.below (.allOf first rest))
  | .anyOf first rest =>
    ⟨[], .anyOf first rest⟩ ::
      (first.positions ++ positionsOfEach rest).map (Position.below (.anyOf first rest))
  | .not child => ⟨[], .not child⟩ :: child.positions.map (Position.below (.not child))
  | .any => [⟨[], .any⟩]
  | .field criterion => [⟨[], .field criterion⟩]
  | .leaf criterion => [⟨[], .leaf criterion⟩]

def positionsOfEach : List (Spec Leaf) → List (Position Leaf)
  | [] => []
  | spec :: rest => spec.positions ++ positionsOfEach rest
end

theorem positionsOfEach_eq (specs : List (Spec Leaf)) :
    positionsOfEach specs = specs.flatMap positions := by
  induction specs with
  | nil => rfl
  | cons spec rest ih => simp only [positionsOfEach, ih, List.flatMap_cons]

theorem positions_eq (spec : Spec Leaf) :
    spec.positions = ⟨[], spec⟩ :: (spec.children.flatMap positions).map (Position.below spec) := by
  cases spec <;> simp [positions, children, positionsOfEach_eq]

/-- Positions stand in the order of their nodes. -/
theorem map_node_positions (spec : Spec Leaf) : spec.positions.map Position.node = spec.nodes := by
  induction spec using Spec.induction with
  | node spec ih =>
    have inner : (spec.children.flatMap positions).map Position.node =
        spec.children.flatMap nodes := by
      rw [List.map_flatMap]
      exact List.flatMap_congr ih
    have same : Position.node ∘ Position.below spec = Position.node := rfl
    rw [positions_eq, nodes_eq, List.map_cons, List.map_map, same, inner]

/-- The nodes around each position of a negation in a group. -/
example : (anyOf (not any) [any] : Spec Empty).positions.map (fun position =>
    position.ancestors.length) = [0, 1, 2, 1] := rfl

end Spec

end Criteria
