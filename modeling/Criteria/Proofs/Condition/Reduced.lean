import Criteria.Proofs.Condition.Evaluation

/-!
Conditions without groups that are not shown as such. A group of one part stands
for the part, and an empty conjunction for the condition that always holds; to
replace them changes neither the text of a condition nor its operands nor its
value.
-/

set_option autoImplicit false

namespace Criteria

/-- What the parts of a group are connected by. -/
inductive Connective where
  | and
  | or

namespace Connective

def group : Connective → List Condition → Condition
  | .and => .all
  | .or => .any

def separator : Connective → String
  | .and => " AND "
  | .or => " OR "

/-- The text of a group without parts. -/
def unit : Connective → String
  | .and => "1 = 1"
  | .or => "1 = 0"

/-- The value of a part that settles the value of its group. -/
def decisive : Connective → Bool
  | .and => false
  | .or => true

/-- The group of some parts, or what it is shown as when it is none. -/
def collapse : Connective → List Condition → Condition
  | .and, [] => .always
  | _, [part] => part
  | connective, parts => connective.group parts

end Connective

namespace Condition

variable {connective : Connective} {parts : List Condition} {binding : Binding} {ps : Parameters}

mutual
/-- The condition with every group in it collapsed. -/
def reduced : Condition → Condition
  | .always => .always
  | .compare left op right => .compare left op right
  | .all parts => Connective.and.collapse (reducedParts parts)
  | .any parts => Connective.or.collapse (reducedParts parts)
  | .not part => .not part.reduced

def reducedParts : List Condition → List Condition
  | [] => []
  | part :: rest => part.reduced :: reducedParts rest
end

theorem reducedParts_eq (parts : List Condition) : reducedParts parts = parts.map reduced := by
  induction parts with
  | nil => rfl
  | cons part rest ih => rw [reducedParts, ih, List.map_cons]

theorem reduced_group (connective : Connective) (parts : List Condition) :
    (connective.group parts).reduced = connective.collapse (parts.map reduced) := by
  rw [← reducedParts_eq]
  cases connective <;> rfl

@[elab_as_elim]
theorem groupInduction {motive : Condition → Prop} (always : motive .always)
    (compare : ∀ left op right, motive (.compare left op right))
    (group : ∀ (connective : Connective) parts, (∀ part ∈ parts, motive part) →
      motive (connective.group parts))
    (not : ∀ part, motive part → motive (.not part)) (c : Condition) : motive c := by
  induction c using Condition.induction with
  | always => exact always
  | compare left op right => exact compare left op right
  | all parts ih => exact group .and parts ih
  | any parts ih => exact group .or parts ih
  | not part ih => exact not part ih

/-! ### Text -/

theorem partTexts_eq (parts : List Condition) : partTexts parts = parts.map text := by
  induction parts with
  | nil => rfl
  | cons part rest ih => rw [partTexts, ih, List.map_cons]

theorem text_group (connective : Connective) (parts : List Condition) :
    (connective.group parts).text =
      groupText connective.separator connective.unit (parts.map text) := by
  rw [← partTexts_eq]
  cases connective <;> rfl

theorem text_collapse (connective : Connective) (parts : List Condition) :
    (connective.collapse parts).text = (connective.group parts).text := by
  match connective, parts with
  | .and, [] | .or, [] | .and, [_] | .or, [_] | .and, _ :: _ :: _ | .or, _ :: _ :: _ => rfl

theorem text_reduced (c : Condition) : c.reduced.text = c.text := by
  induction c using groupInduction with
  | always | compare => rfl
  | group connective parts ih =>
    rw [reduced_group, text_collapse, text_group, text_group, List.map_map]
    exact congrArg _ (List.map_congr_left ih)
  | not part ih => rw [reduced, text, text, ih]

/-! ### Operands -/

theorem operands_group (connective : Connective) (parts : List Condition) :
    (connective.group parts).operands = parts.flatMap operands := by
  rw [← operandsOfParts_eq]
  cases connective <;> rfl

theorem operands_collapse (connective : Connective) (parts : List Condition) :
    (connective.collapse parts).operands = (connective.group parts).operands := by
  match connective, parts with
  | .and, [] | .or, [] | .and, _ :: _ :: _ | .or, _ :: _ :: _ => rfl
  | .and, [part] | .or, [part] => exact (List.append_nil part.operands).symm

theorem operands_reduced (c : Condition) : c.reduced.operands = c.operands := by
  induction c using groupInduction with
  | always | compare => rfl
  | group connective parts ih =>
    rw [reduced_group, operands_collapse, operands_group, operands_group, List.flatMap_map]
    exact List.flatMap_congr ih
  | not part ih => rw [reduced, operands, operands, ih]

/-! ### Value -/

theorem evaluate_group (connective : Connective) (parts : List Condition) :
    (connective.group parts).evaluate binding ps =
      evaluateGroup connective.decisive binding ps parts := by
  cases connective with
  | and => exact evaluateAll_eq_group parts
  | or => exact evaluateAny_eq_group parts

theorem evaluateGroup_singleton (decisive : Bool) (part : Condition) :
    evaluateGroup decisive binding ps [part] = part.evaluate binding ps := by
  unfold evaluateGroup evaluateGroup
  cases part.evaluate binding ps with
  | error e => rfl
  | ok holds => cases holds <;> cases decisive <;> rfl

theorem evaluateGroup_map {f : Condition → Condition} {decisive : Bool}
    (each : ∀ part ∈ parts, (f part).evaluate binding ps = part.evaluate binding ps) :
    evaluateGroup decisive binding ps (parts.map f) = evaluateGroup decisive binding ps parts := by
  induction parts with
  | nil => rfl
  | cons part rest ih =>
    obtain ⟨head, tail⟩ := List.forall_mem_cons.1 each
    rw [List.map_cons, evaluateGroup, evaluateGroup, head, ih tail]

theorem evaluate_collapse (connective : Connective) (parts : List Condition) :
    (connective.collapse parts).evaluate binding ps =
      (connective.group parts).evaluate binding ps := by
  match connective, parts with
  | .and, [] | .or, [] | .and, _ :: _ :: _ | .or, _ :: _ :: _ => rfl
  | .and, [part] | .or, [part] =>
    rw [evaluate_group, evaluateGroup_singleton]
    rfl

theorem evaluate_reduced (c : Condition) (binding : Binding) (ps : Parameters) :
    c.reduced.evaluate binding ps = c.evaluate binding ps := by
  induction c using groupInduction with
  | always | compare => rfl
  | group connective parts ih =>
    rw [reduced_group, evaluate_collapse, evaluate_group, evaluate_group, evaluateGroup_map ih]
  | not part ih => rw [reduced, evaluate, evaluate, ih]

/-! ### Shape -/

/-- Every group has at least two parts, but for the empty disjunction. -/
inductive Reduced : Condition → Prop where
  | always : Reduced .always
  | never : Reduced (.any [])
  | compare (left : Operand) (op : Comparison) (right : Operand) : Reduced (.compare left op right)
  | group (connective : Connective) (first second : Condition) (rest : List Condition) :
    (∀ part ∈ first :: second :: rest, Reduced part) →
    Reduced (connective.group (first :: second :: rest))
  | not (part : Condition) : Reduced part → Reduced (.not part)

theorem Reduced.collapse (each : ∀ part ∈ parts, part.Reduced) :
    (connective.collapse parts).Reduced := by
  match connective, parts with
  | .and, [] => exact .always
  | .or, [] => exact .never
  | .and, [part] | .or, [part] => exact each part (List.mem_singleton_self part)
  | .and, first :: second :: rest => exact .group .and first second rest each
  | .or, first :: second :: rest => exact .group .or first second rest each

theorem reduced_reduced (c : Condition) : c.reduced.Reduced := by
  induction c using groupInduction with
  | always => exact .always
  | compare left op right => exact .compare left op right
  | group connective parts ih =>
    rw [reduced_group]
    refine .collapse fun part member => ?_
    obtain ⟨inner, inside, rfl⟩ := List.mem_map.1 member
    exact ih inner inside
  | not part ih => exact .not _ ih

end Condition

end Criteria
