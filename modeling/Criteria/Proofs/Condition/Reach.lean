import Criteria.Proofs.Condition.Evaluation

/-! How far evaluation goes. It looks at the operands of a condition from left to right, passes over
those that decide nothing any more, and fails exactly at an operand that it looks at. -/

set_option autoImplicit false

namespace Criteria

namespace Condition

/-- Evaluation looks at the operand: whatever comes before it has a value and leaves the condition
undecided. -/
inductive Reaches (binding : Binding) (ps : Parameters) : Condition → Operand → Prop where
  | left {left op right} : Reaches binding ps (.compare left op right) left
  | right {left op right value} : left.evaluate binding ps = .ok value →
    Reaches binding ps (.compare left op right) right
  | all {before part after operand} :
    (∀ earlier ∈ before, earlier.evaluate binding ps = .ok true) →
    Reaches binding ps part operand → Reaches binding ps (.all (before ++ part :: after)) operand
  | any {before part after operand} :
    (∀ earlier ∈ before, earlier.evaluate binding ps = .ok false) →
    Reaches binding ps part operand → Reaches binding ps (.any (before ++ part :: after)) operand
  | not {part operand} : Reaches binding ps part operand → Reaches binding ps (.not part) operand

variable {binding : Binding} {ps : Parameters} {c part : Condition} {before after : List Condition}
  {operand : Operand} {decisive value : Bool} {e : ExecutionError}

theorem split_of_evaluateGroup_eq_error {parts : List Condition}
    (failed : evaluateGroup decisive binding ps parts = .error e) : ∃ before part after,
      parts = before ++ part :: after ∧
      (∀ earlier ∈ before, earlier.evaluate binding ps = .ok !decisive) ∧
      part.evaluate binding ps = .error e := by
  induction parts with
  | nil => cases failed
  | cons first rest ih =>
    rcases bind_eq_error_iff.1 failed with head | ⟨holds, head, tail⟩
    · exact ⟨[], first, rest, rfl, fun _ => nofun, head⟩
    · split at tail
      · cases tail
      · next undecided =>
        obtain ⟨before, part, after, rfl, earlier, inside⟩ := ih tail
        have passed : holds = !decisive := Bool.eq_not.2 undecided
        exact ⟨first :: before, part, after, rfl,
          List.forall_mem_cons.2 ⟨passed ▸ head, earlier⟩, inside⟩

theorem part_of_evaluateGroup_eq_ok
    (earlier : ∀ earlier ∈ before, earlier.evaluate binding ps = .ok !decisive)
    (evaluates : evaluateGroup decisive binding ps (before ++ part :: after) = .ok value) :
    ∃ holds, part.evaluate binding ps = .ok holds := by
  induction before with
  | nil =>
    obtain ⟨holds, head, -⟩ := bind_eq_ok_iff.1 evaluates
    exact ⟨holds, head⟩
  | cons first rest ih =>
    obtain ⟨passed, others⟩ := List.forall_mem_cons.1 earlier
    have undecided : ¬ (!decisive) = decisive := by cases decisive <;> decide
    rw [List.cons_append, evaluateGroup, passed, ok_bind, if_neg undecided] at evaluates
    exact ih others evaluates

/-- An operand that a condition with a value has come to has a value. -/
theorem Reaches.evaluates (reaches : c.Reaches binding ps operand)
    (evaluates : c.evaluate binding ps = .ok value) :
    ∃ known, operand.evaluate binding ps = .ok known := by
  induction reaches generalizing value with
  | left =>
    obtain ⟨known, head, -⟩ := bind_eq_ok_iff.1 evaluates
    exact ⟨known, head⟩
  | right =>
    obtain ⟨_, -, evaluates⟩ := bind_eq_ok_iff.1 evaluates
    obtain ⟨known, tail, -⟩ := bind_eq_ok_iff.1 evaluates
    exact ⟨known, tail⟩
  | all earlier _ ih =>
    rw [evaluate, evaluateAll_eq_group] at evaluates
    obtain ⟨holds, inside⟩ := part_of_evaluateGroup_eq_ok earlier evaluates
    exact ih inside
  | any earlier _ ih =>
    rw [evaluate, evaluateAny_eq_group] at evaluates
    obtain ⟨holds, inside⟩ := part_of_evaluateGroup_eq_ok earlier evaluates
    exact ih inside
  | not _ ih =>
    obtain ⟨holds, inside, -⟩ := bind_eq_ok_iff.1 evaluates
    exact ih inside

/-- The error of a condition is that of an operand that evaluation has come to. -/
theorem exists_reaches_of_error (failed : c.evaluate binding ps = .error e) :
    ∃ operand, c.Reaches binding ps operand ∧ operand.evaluate binding ps = .error e := by
  induction c using Condition.induction with
  | always => cases failed
  | compare left op right =>
    rcases bind_eq_error_iff.1 failed with head | ⟨known, head, tail⟩
    · exact ⟨left, .left, head⟩
    · rcases bind_eq_error_iff.1 tail with tail | ⟨_, -, done⟩
      · exact ⟨right, .right head, tail⟩
      · cases done
  | all parts ih =>
    rw [evaluate, evaluateAll_eq_group] at failed
    obtain ⟨before, part, after, rfl, earlier, inside⟩ := split_of_evaluateGroup_eq_error failed
    obtain ⟨operand, reaches, unknown⟩ := ih part (by simp) inside
    exact ⟨operand, .all earlier reaches, unknown⟩
  | any parts ih =>
    rw [evaluate, evaluateAny_eq_group] at failed
    obtain ⟨before, part, after, rfl, earlier, inside⟩ := split_of_evaluateGroup_eq_error failed
    obtain ⟨operand, reaches, unknown⟩ := ih part (by simp) inside
    exact ⟨operand, .any earlier reaches, unknown⟩
  | not part ih =>
    rcases bind_eq_error_iff.1 failed with inside | ⟨_, -, done⟩
    · obtain ⟨operand, reaches, unknown⟩ := ih inside
      exact ⟨operand, .not reaches, unknown⟩
    · cases done

end Condition

end Criteria
