import Criteria.Execution.Evaluation
import Criteria.Proofs.Parameters
import Criteria.Proofs.Traversal

/-! What the value of a condition depends on. A group has a value made of those of its parts, and a
condition that has a value keeps it as long as its names keep theirs. -/

set_option autoImplicit false

namespace Criteria

namespace Condition

variable {binding : Binding} {ps later : Parameters}

@[elab_as_elim]
theorem induction {motive : Condition → Prop} (always : motive .always)
    (compare : ∀ left op right, motive (.compare left op right))
    (all : ∀ parts, (∀ part ∈ parts, motive part) → motive (.all parts))
    (any : ∀ parts, (∀ part ∈ parts, motive part) → motive (.any parts))
    (not : ∀ part, motive part → motive (.not part)) (c : Condition) : motive c :=
  Condition.rec always compare all any not (fun _ member => nomatch member)
    (fun _ _ head tail part member => by
      rcases List.mem_cons.1 member with rfl | member
      · exact head
      · exact tail part member) c

theorem operandsOfParts_eq (parts : List Condition) :
    operandsOfParts parts = parts.flatMap operands := by
  induction parts with
  | nil => rfl
  | cons part rest ih => simp only [operandsOfParts, ih, List.flatMap_cons]

/-- The value of a group: the parts are looked at from left to right up to the first one that has
the decisive value. -/
def evaluateGroup (decisive : Bool) (binding : Binding) (ps : Parameters) :
    List Condition → Except ExecutionError Bool
  | [] => .ok !decisive
  | part :: rest => do
    if (← part.evaluate binding ps) = decisive then return decisive
    else evaluateGroup decisive binding ps rest

theorem evaluateAll_eq_group (parts : List Condition) :
    evaluateAll binding ps parts = evaluateGroup false binding ps parts := by
  induction parts with
  | nil => rfl
  | cons part rest ih =>
    simp only [evaluateAll, evaluateGroup, ih]
    cases part.evaluate binding ps with
    | error e => rfl
    | ok holds => cases holds <;> rfl

theorem evaluateAny_eq_group (parts : List Condition) :
    evaluateAny binding ps parts = evaluateGroup true binding ps parts := by
  induction parts with
  | nil => rfl
  | cons part rest ih =>
    simp only [evaluateAny, evaluateGroup, ih]

/-! ### Groups of parts that have values -/

theorem evaluateAll_eq {parts : List Condition} {values : List Bool}
    (each : List.Forall₂ (fun part value => part.evaluate binding ps = .ok value) parts values) :
    evaluateAll binding ps parts = .ok (values.all id) := by
  induction each with
  | nil => rfl
  | @cons part value parts values head _ ih =>
    simp only [evaluateAll, head, ok_bind]
    cases value with
    | false => rfl
    | true => exact ih

theorem evaluateAny_eq {parts : List Condition} {values : List Bool}
    (each : List.Forall₂ (fun part value => part.evaluate binding ps = .ok value) parts values) :
    evaluateAny binding ps parts = .ok (values.any id) := by
  induction each with
  | nil => rfl
  | @cons part value parts values head _ ih =>
    simp only [evaluateAny, head, ok_bind]
    cases value with
    | false => exact ih
    | true => rfl

/-! ### Parameters that change -/

-- The parts after the decisive one need not have a value, so this is about the run itself and not
-- about the values of the parts.
theorem evaluateGroup_kept {decisive value : Bool} {parts : List Condition}
    (each : ∀ part ∈ parts, ∀ value, part.evaluate binding ps = .ok value →
      part.evaluate binding later = .ok value)
    (evaluates : evaluateGroup decisive binding ps parts = .ok value) :
    evaluateGroup decisive binding later parts = .ok value := by
  induction parts with
  | nil => exact evaluates
  | cons part rest ih =>
    obtain ⟨holds, head, tail⟩ := bind_eq_ok_iff.1 evaluates
    refine bind_eq_ok_iff.2 ⟨holds, each part (by simp) holds head, ?_⟩
    split
    · next decided => rwa [if_pos decided] at tail
    · next undecided =>
      rw [if_neg undecided] at tail
      exact ih (fun other member => each other (by simp [member])) tail

theorem parameterNames_not (part : Condition) : (not part).parameterNames = part.parameterNames :=
  rfl

theorem parameterNames_all (parts : List Condition) :
    (all parts).parameterNames = parts.flatMap parameterNames := by
  unfold parameterNames
  rw [operands, operandsOfParts_eq, List.filterMap_flatMap]

theorem parameterNames_any (parts : List Condition) :
    (any parts).parameterNames = parts.flatMap parameterNames := parameterNames_all parts

theorem evaluate_operand_kept {operand : Operand} {value : Json}
    (kept : Parameters.KeptOn operand.parameter?.toList ps later)
    (evaluates : operand.evaluate binding ps = .ok value) :
    operand.evaluate binding later = .ok value := by
  cases operand with
  | field ref => exact evaluates
  | parameter name =>
    simp only [Operand.evaluate] at evaluates ⊢
    cases found : ps.get? name with
    | none => simp [found] at evaluates
    | some literal =>
      rw [kept name (by simp [Operand.parameter?]) literal found]
      simpa [found] using evaluates

/-- Evaluation looks at the values of the names in the condition and at no others. -/
theorem evaluate_kept {c : Condition} {value : Bool}
    (kept : Parameters.KeptOn c.parameterNames ps later)
    (evaluates : c.evaluate binding ps = .ok value) : c.evaluate binding later = .ok value := by
  induction c using Condition.induction generalizing value with
  | always => exact evaluates
  | compare left op right =>
    obtain ⟨l, hl, evaluates⟩ := bind_eq_ok_iff.1 evaluates
    obtain ⟨r, hr, evaluates⟩ := bind_eq_ok_iff.1 evaluates
    have names : (Condition.compare left op right).parameterNames =
        left.parameter?.toList ++ right.parameter?.toList := by
      cases left <;> cases right <;> rfl
    rw [names] at kept
    have onLeft := evaluate_operand_kept (fun name member => kept name (by simp [member])) hl
    have onRight := evaluate_operand_kept (fun name member => kept name (by simp [member])) hr
    exact bind_eq_ok_iff.2 ⟨l, onLeft, bind_eq_ok_iff.2 ⟨r, onRight, evaluates⟩⟩
  | all parts ih =>
    rw [parameterNames_all] at kept
    simp only [evaluate, evaluateAll_eq_group] at evaluates ⊢
    exact evaluateGroup_kept (fun part member value => ih part member fun name inside =>
      kept name (List.mem_flatMap.2 ⟨part, member, inside⟩)) evaluates
  | any parts ih =>
    rw [parameterNames_any] at kept
    simp only [evaluate, evaluateAny_eq_group] at evaluates ⊢
    exact evaluateGroup_kept (fun part member value => ih part member fun name inside =>
      kept name (List.mem_flatMap.2 ⟨part, member, inside⟩)) evaluates
  | not part ih =>
    obtain ⟨holds, head, negated⟩ := bind_eq_ok_iff.1 evaluates
    exact bind_eq_ok_iff.2 ⟨holds, ih kept head, negated⟩

/-! ### Conjunctions that grow -/

theorem parameterNames_andAlso (c other : Condition) :
    (c.andAlso other).parameterNames = c.parameterNames ++ other.parameterNames := by
  cases c with
  | all parts => simp [andAlso, parameterNames_all]
  | always | compare | any | not => simp [andAlso, parameterNames_all]

theorem evaluateAll_append (parts : List Condition) (last : Condition) :
    evaluateAll binding ps (parts ++ [last]) = (do
      if ← evaluateAll binding ps parts then last.evaluate binding ps else return false) := by
  induction parts with
  | nil =>
    simp only [List.nil_append, evaluateAll, ok_bind]
    cases last.evaluate binding ps with
    | error e => rfl
    | ok holds => cases holds <;> rfl
  | cons part rest ih =>
    simp only [List.cons_append, evaluateAll, ih]
    cases part.evaluate binding ps with
    | error e => rfl
    | ok holds => cases holds <;> rfl

theorem evaluateAll_singleton (c : Condition) :
    evaluateAll binding ps [c] = c.evaluate binding ps :=
  (evaluateAll_append [] c).trans (by simp [evaluateAll])

theorem evaluateAll_pair (c other : Condition) :
    evaluateAll binding ps [c, other] = (do
      if ← c.evaluate binding ps then other.evaluate binding ps else return false) :=
  (evaluateAll_append [c] other).trans (by rw [evaluateAll_singleton])

/-- A narrowed condition holds when both conditions hold, and the further one is looked at only
where the first one holds. -/
theorem evaluate_andAlso (c other : Condition) :
    (c.andAlso other).evaluate binding ps = (do
      if ← c.evaluate binding ps then other.evaluate binding ps else return false) := by
  cases c with
  | all parts => exact evaluateAll_append parts other
  | always => exact evaluateAll_pair .always other
  | compare left op right => exact evaluateAll_pair (.compare left op right) other
  | any parts => exact evaluateAll_pair (.any parts) other
  | not part => exact evaluateAll_pair (.not part) other

end Condition

end Criteria
