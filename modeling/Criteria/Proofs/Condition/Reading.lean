import Criteria.Proofs.Condition.Evaluation

/-! The reading of a condition as a formula over the values of its operands. Where the operands can
be evaluated, evaluation gives the reading. -/

set_option autoImplicit false

namespace Criteria

namespace Condition

mutual
def reading (value : Operand → Json) : Condition → Bool
  | .always => true
  | .compare left op right => op.holds ((value left).compare? (value right))
  | .all parts => readingAll value parts
  | .any parts => readingAny value parts
  | .not part => !part.reading value

def readingAll (value : Operand → Json) : List Condition → Bool
  | [] => true
  | part :: rest => part.reading value && readingAll value rest

def readingAny (value : Operand → Json) : List Condition → Bool
  | [] => false
  | part :: rest => part.reading value || readingAny value rest
end

variable {value : Operand → Json} {binding : Binding} {ps : Parameters}

theorem readingAll_eq (parts : List Condition) :
    readingAll value parts = (parts.map (reading value)).all id := by
  induction parts with
  | nil => rfl
  | cons part rest ih => simp only [readingAll, ih, List.map_cons, List.all_cons, id_eq]

theorem readingAny_eq (parts : List Condition) :
    readingAny value parts = (parts.map (reading value)).any id := by
  induction parts with
  | nil => rfl
  | cons part rest ih => simp only [readingAny, ih, List.map_cons, List.any_cons, id_eq]

/-- The parts have values when each of them does. -/
theorem forall₂_reading {parts : List Condition}
    (each : ∀ part ∈ parts, (∀ operand ∈ part.operands,
      operand.evaluate binding ps = .ok (value operand)) →
      part.evaluate binding ps = .ok (part.reading value))
    (known : ∀ operand ∈ operandsOfParts parts,
      operand.evaluate binding ps = .ok (value operand)) :
    List.Forall₂ (fun part value => part.evaluate binding ps = .ok value) parts
      (parts.map (reading value)) := by
  rw [operandsOfParts_eq] at known
  rw [List.forall₂_map_right_iff, List.forall₂_same]
  intro part member
  exact each part member fun operand inside =>
    known operand (List.mem_flatMap.2 ⟨part, member, inside⟩)

theorem evaluate_eq_reading {c : Condition}
    (known : ∀ operand ∈ c.operands, operand.evaluate binding ps = .ok (value operand)) :
    c.evaluate binding ps = .ok (c.reading value) := by
  induction c using Condition.induction with
  | always => rfl
  | compare left op right =>
    have onLeft := known left (by simp [operands])
    have onRight := known right (by simp [operands])
    simp only [evaluate, onLeft, onRight, ok_bind]
    rfl
  | all parts ih => rw [evaluate, evaluateAll_eq (forall₂_reading ih known), reading, readingAll_eq]
  | any parts ih => rw [evaluate, evaluateAny_eq (forall₂_reading ih known), reading, readingAny_eq]
  | not part ih =>
    simp only [evaluate, ih known, ok_bind, reading]
    rfl

end Condition

end Criteria
