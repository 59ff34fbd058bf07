import Criteria.Spec.Basic

/-! Specifications as trees: their nodes in pre-order, the field comparisons at their leaves, and
their value once the leaves are judged. -/

set_option autoImplicit false

namespace Criteria

/-- A leaf that has a name and no meaning: nothing satisfies it. -/
structure Marker where
  name : String

instance : SpecLeaf Marker Empty where
  typeName := Marker.name
  isSatisfiedBy _ _ := false

namespace Spec

variable {Leaf Object : Type}

@[elab_as_elim]
theorem induction {motive : Spec Leaf → Prop}
    (node : ∀ spec : Spec Leaf, (∀ child ∈ spec.children, motive child) → motive spec)
    (spec : Spec Leaf) : motive spec := by
  -- the lists of children have a motive of their own
  refine @Spec.rec Leaf motive (fun specs => ∀ spec ∈ specs, motive spec)
    ?allOf ?anyOf ?not ?any ?field ?leaf ?nil ?cons spec
  case allOf | anyOf =>
    intro first rest head tail
    apply node
    intro child member
    rcases List.mem_cons.1 member with rfl | member
    · exact head
    · exact tail child member
  case not =>
    intro inner holds
    exact node _ fun child member => List.mem_singleton.1 member ▸ holds
  case any => exact node _ fun _ member => nomatch member
  case field => exact fun criterion => node _ fun _ member => nomatch member
  case leaf => exact fun criterion => node _ fun _ member => nomatch member
  case nil => exact fun _ member => nomatch member
  case cons =>
    intro head tail holds rest spec member
    rcases List.mem_cons.1 member with rfl | member
    · exact holds
    · exact rest spec member

mutual
/-- The specifications in the tree, each before those nested in it. -/
def nodes : Spec Leaf → List (Spec Leaf)
  | .allOf first rest => .allOf first rest :: (first.nodes ++ nodesOfEach rest)
  | .anyOf first rest => .anyOf first rest :: (first.nodes ++ nodesOfEach rest)
  | .not child => .not child :: child.nodes
  | .any => [.any]
  | .field criterion => [.field criterion]
  | .leaf criterion => [.leaf criterion]

def nodesOfEach : List (Spec Leaf) → List (Spec Leaf)
  | [] => []
  | spec :: rest => spec.nodes ++ nodesOfEach rest
end

theorem nodesOfEach_eq (specs : List (Spec Leaf)) : nodesOfEach specs = specs.flatMap nodes := by
  induction specs with
  | nil => rfl
  | cons spec rest ih => simp only [nodesOfEach, ih, List.flatMap_cons]

theorem nodes_eq (spec : Spec Leaf) : spec.nodes = spec :: spec.children.flatMap nodes := by
  cases spec <;> simp [nodes, children, nodesOfEach_eq]

theorem self_mem_nodes (spec : Spec Leaf) : spec ∈ spec.nodes := by
  rw [nodes_eq]
  exact List.mem_cons_self

theorem nodes_subset_of_child {spec child : Spec Leaf} (member : child ∈ spec.children) :
    child.nodes ⊆ spec.nodes := by
  intro node inside
  rw [nodes_eq spec]
  exact List.mem_cons_of_mem _ (List.mem_flatMap.2 ⟨child, member, inside⟩)

def comparison? : Spec Leaf → Option FieldCompare
  | .field criterion => some criterion
  | _ => none

/-- The field comparisons of the tree, from left to right. -/
def comparisons (spec : Spec Leaf) : List FieldCompare :=
  spec.nodes.filterMap comparison?

theorem comparisons_eq (spec : Spec Leaf) :
    spec.comparisons = spec.comparison?.toList ++ spec.children.flatMap comparisons := by
  unfold comparisons
  rw [nodes_eq spec, List.filterMap_cons]
  cases spec.comparison? <;> simp [List.filterMap_flatMap]

@[simp] theorem comparisons_any : (any : Spec Leaf).comparisons = [] := rfl

@[simp] theorem comparisons_field (criterion : FieldCompare) :
    (field criterion : Spec Leaf).comparisons = [criterion] := rfl

@[simp] theorem comparisons_not (child : Spec Leaf) :
    (not child).comparisons = child.comparisons := by
  rw [comparisons_eq]
  simp [comparison?, children]

@[simp] theorem comparisons_allOf (first : Spec Leaf) (rest : List (Spec Leaf)) :
    (allOf first rest).comparisons = (first :: rest).flatMap comparisons := comparisons_eq _

@[simp] theorem comparisons_anyOf (first : Spec Leaf) (rest : List (Spec Leaf)) :
    (anyOf first rest).comparisons = (first :: rest).flatMap comparisons := comparisons_eq _

/-- No leaf of the tree is one of the user's. -/
def IsPlain (spec : Spec Leaf) : Prop :=
  ∀ criterion, .leaf criterion ∉ spec.nodes

mutual
/-- The value of the tree when the leaves have these values. -/
def judge (holds : FieldCompare → Bool) (other : Leaf → Bool) : Spec Leaf → Bool
  | .allOf first rest => first.judge holds other && judgeAll holds other rest
  | .anyOf first rest => first.judge holds other || judgeAny holds other rest
  | .not child => !child.judge holds other
  | .any => true
  | .field criterion => holds criterion
  | .leaf criterion => other criterion

def judgeAll (holds : FieldCompare → Bool) (other : Leaf → Bool) : List (Spec Leaf) → Bool
  | [] => true
  | spec :: rest => spec.judge holds other && judgeAll holds other rest

def judgeAny (holds : FieldCompare → Bool) (other : Leaf → Bool) : List (Spec Leaf) → Bool
  | [] => false
  | spec :: rest => spec.judge holds other || judgeAny holds other rest
end

variable {holds : FieldCompare → Bool} {other : Leaf → Bool}

theorem judgeAll_eq (specs : List (Spec Leaf)) :
    judgeAll holds other specs = specs.all (judge holds other) := by
  induction specs with
  | nil => rfl
  | cons spec rest ih => simp only [judgeAll, ih, List.all_cons]

theorem judgeAny_eq (specs : List (Spec Leaf)) :
    judgeAny holds other specs = specs.any (judge holds other) := by
  induction specs with
  | nil => rfl
  | cons spec rest ih => simp only [judgeAny, ih, List.any_cons]

theorem judge_allOf (first : Spec Leaf) (rest : List (Spec Leaf)) :
    (allOf first rest).judge holds other = (first :: rest).all (judge holds other) := by
  simp only [judge, judgeAll_eq, List.all_cons]

theorem judge_anyOf (first : Spec Leaf) (rest : List (Spec Leaf)) :
    (anyOf first rest).judge holds other = (first :: rest).any (judge holds other) := by
  simp only [judge, judgeAny_eq, List.any_cons]

variable [SpecLeaf Leaf Object]

theorem allSatisfiedBy_eq (candidate : Candidate Object) (specs : List (Spec Leaf)) :
    allSatisfiedBy candidate specs = specs.all (isSatisfiedBy candidate) := by
  induction specs with
  | nil => rfl
  | cons spec rest ih => simp only [allSatisfiedBy, ih, List.all_cons]

theorem anySatisfiedBy_eq (candidate : Candidate Object) (specs : List (Spec Leaf)) :
    anySatisfiedBy candidate specs = specs.any (isSatisfiedBy candidate) := by
  induction specs with
  | nil => rfl
  | cons spec rest ih => simp only [anySatisfiedBy, ih, List.any_cons]

/-- A row satisfies a specification when the tree has that value with every leaf judged on it. -/
theorem isSatisfiedBy_row (row : Json) (spec : Spec Leaf) :
    spec.isSatisfiedBy (.row row) =
      spec.judge (·.holdsOn row) (SpecLeaf.isSatisfiedBy · (.row row)) := by
  induction spec using Spec.induction with
  | node spec ih =>
    cases spec with
    | allOf first rest =>
      rw [judge_allOf, isSatisfiedBy, allSatisfiedBy_eq, ← List.all_cons]
      have values := congrArg (List.all · id) (List.map_congr_left ih)
      rwa [List.all_map, List.all_map] at values
    | anyOf first rest =>
      rw [judge_anyOf, isSatisfiedBy, anySatisfiedBy_eq, ← List.any_cons]
      have values := congrArg (List.any · id) (List.map_congr_left ih)
      rwa [List.any_map, List.any_map] at values
    | not child => rw [isSatisfiedBy, judge, ih child (List.mem_singleton_self child)]
    | any => rfl
    | field criterion => rfl
    | leaf criterion => rfl

end Spec

end Criteria
