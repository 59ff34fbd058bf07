import Criteria.Proofs.Condition.Reach
import Criteria.Proofs.Condition.Reading
import Criteria.Proofs.Condition.Reduced

/-!
Conditions as formulas of logic. A condition whose names are all bound has a
value, which is the truth of the formula; so it may be rearranged like one, by
permuting the parts of groups and by moving negations inwards or outwards. An
evaluation that fails names something that occurs in the condition and is not
bound.
-/

set_option autoImplicit false

namespace Criteria

/-! ### Comparisons -/

namespace Comparison

variable {op : Comparison} {a b : Json}

/-- The comparison is one that values in this order stand in. -/
def Allows : Comparison → Ordering → Prop
  | .equal, ordering => ordering = .eq
  | .notEqual, ordering => ordering ≠ .eq
  | .less, ordering => ordering = .lt
  | .atMost, ordering => ordering ≠ .gt
  | .greater, ordering => ordering = .gt
  | .atLeast, ordering => ordering ≠ .lt

/-- The values are scalars of one kind, in an order that the comparison allows. Nulls, lists and
records stand in no comparison. -/
inductive Relates (op : Comparison) : Json → Json → Prop
  | text {s t : String} : op.Allows (compare s t) → Relates op (.text s) (.text t)
  | bool {a b : Bool} : op.Allows (compare a b) → Relates op (.bool a) (.bool b)
  | number {m n : Number} {ordering : Ordering} : m.compare? n = some ordering →
    op.Allows ordering → Relates op (.number m) (.number n)

theorem holds_some_iff {ordering : Ordering} : op.holds (some ordering) = true ↔ op.Allows ordering := by
  cases op <;> cases ordering <;> simp [holds, Allows]

theorem holds_iff_relates : op.holds (a.compare? b) = true ↔ op.Relates a b := by
  constructor
  · intro holds
    cases a <;> cases b <;> try cases holds
    case text.text s t => exact .text (holds_some_iff.1 holds)
    case bool.bool a b => exact .bool (holds_some_iff.1 holds)
    case number.number m n =>
      cases compared : m.compare? n with
      | none => simp [JsonTree.compare?, compared, Comparison.holds] at holds
      | some ordering =>
        rw [JsonTree.compare?, compared] at holds
        exact .number compared (holds_some_iff.1 holds)
  · intro relates
    cases relates with
    | text allows => exact holds_some_iff.2 allows
    | bool allows => exact holds_some_iff.2 allows
    | number compared allows =>
      rw [JsonTree.compare?, compared]
      exact holds_some_iff.2 allows

end Comparison

/-! ### Names and values -/

namespace Operand

/-- The value of an operand where its name is bound; null for a field that the row does not have. -/
def value (binding : Binding) (ps : Parameters) : Operand → Json
  | .field ref => ((Dictionary.find? binding ref.aliasName).bind (·.get? ref.field)).getD .null
  | .parameter name => ((ps.get? name).map Literal.value).getD .null

variable {binding : Binding} {ps : Parameters} {operand : Operand} {e : ExecutionError}

/-- The name of the operand has a row or a literal. -/
def IsBound (binding : Binding) (ps : Parameters) : Operand → Prop
  | .field ref => (Dictionary.find? binding ref.aliasName).isSome
  | .parameter name => (ps.get? name).isSome

theorem evaluate_eq_value (bound : operand.IsBound binding ps) :
    operand.evaluate binding ps = .ok (operand.value binding ps) := by
  cases operand with
  | field ref =>
    obtain ⟨row, found⟩ := Option.isSome_iff_exists.1 bound
    simp only [evaluate, Binding.field, Binding.row, found, value, Option.bind_some]
    rfl
  | parameter name =>
    obtain ⟨literal, found⟩ := Option.isSome_iff_exists.1 bound
    simp only [evaluate, found, value, Option.map_some, Option.getD_some]

/-- Why an operand without a value has none. -/
theorem cause_of_evaluate_eq_error (failed : operand.evaluate binding ps = .error e) :
    (∃ ref, operand = .field ref ∧ Dictionary.find? binding ref.aliasName = none ∧
      e = .unknownAlias ref.aliasName) ∨
    ∃ name, operand = .parameter name ∧ ps.get? name = none ∧ e = .unknownParameter name := by
  cases operand with
  | field ref =>
    cases found : Dictionary.find? binding ref.aliasName with
    | some row =>
      simp only [evaluate, Binding.field, Binding.row, found] at failed
      cases failed
    | none =>
      simp only [evaluate, Binding.field, Binding.row, found] at failed
      cases failed
      exact .inl ⟨ref, rfl, found, rfl⟩
  | parameter name =>
    cases found : ps.get? name with
    | some literal =>
      simp only [evaluate, found] at failed
      cases failed
    | none =>
      simp only [evaluate, found] at failed
      cases failed
      exact .inr ⟨name, rfl, found, rfl⟩

end Operand

namespace Connective

def dual : Connective → Connective
  | .and => .or
  | .or => .and

end Connective

namespace Condition

variable {value : Operand → Json} {binding : Binding} {ps : Parameters} {c other : Condition}
  {connective : Connective} {parts : List Condition} {operand : Operand} {e : ExecutionError}

theorem mem_fieldRefs {ref : FieldRef} : ref ∈ c.fieldRefs ↔ .field ref ∈ c.operands := by
  rw [fieldRefs, List.mem_filterMap]
  constructor
  · rintro ⟨_ | name, member, same⟩
    · cases same
      exact member
    · cases same
  · exact fun member => ⟨_, member, rfl⟩

theorem mem_parameterNames {name : String} :
    name ∈ c.parameterNames ↔ .parameter name ∈ c.operands := by
  rw [parameterNames, List.mem_filterMap]
  constructor
  · rintro ⟨ref | _, member, same⟩
    · cases same
    · cases same
      exact member
  · exact fun member => ⟨_, member, rfl⟩

theorem Reaches.mem_operands (reaches : c.Reaches binding ps operand) : operand ∈ c.operands := by
  induction reaches with
  | left => exact List.mem_cons_self
  | right => exact List.mem_cons_of_mem _ (List.mem_singleton_self _)
  | @all before part after operand _ _ ih =>
    rw [operands, operandsOfParts_eq]
    exact List.mem_flatMap.2 ⟨part, by simp, ih⟩
  | @any before part after operand _ _ ih =>
    rw [operands, operandsOfParts_eq]
    exact List.mem_flatMap.2 ⟨part, by simp, ih⟩
  | not _ ih => exact ih

/-- All aliases and parameters that occur in the condition are bound. -/
def Closed (binding : Binding) (ps : Parameters) (c : Condition) : Prop :=
  (∀ ref ∈ c.fieldRefs, (Dictionary.find? binding ref.aliasName).isSome) ∧
    ∀ name ∈ c.parameterNames, (ps.get? name).isSome

theorem closed_iff : c.Closed binding ps ↔ ∀ operand ∈ c.operands, operand.IsBound binding ps := by
  constructor
  · rintro ⟨fields, names⟩ operand member
    cases operand with
    | field ref => exact fields ref (mem_fieldRefs.2 member)
    | parameter name => exact names name (mem_parameterNames.2 member)
  · intro bound
    exact ⟨fun ref member => bound _ (mem_fieldRefs.1 member),
      fun name member => bound _ (mem_parameterNames.1 member)⟩

/-! ### Truth -/

mutual
/-- The condition as a formula over the values of its operands. -/
def Holds (value : Operand → Json) : Condition → Prop
  | .always => True
  | .compare left op right => op.Relates (value left) (value right)
  | .all parts => AllHold value parts
  | .any parts => AnyHolds value parts
  | .not part => ¬ part.Holds value

def AllHold (value : Operand → Json) : List Condition → Prop
  | [] => True
  | part :: rest => part.Holds value ∧ AllHold value rest

def AnyHolds (value : Operand → Json) : List Condition → Prop
  | [] => False
  | part :: rest => part.Holds value ∨ AnyHolds value rest
end

theorem holds_and : (Connective.and.group parts).Holds value ↔ ∀ part ∈ parts, part.Holds value := by
  change AllHold value parts ↔ _
  induction parts with
  | nil => simp [AllHold]
  | cons part rest ih => rw [AllHold, ih, List.forall_mem_cons]

theorem holds_or : (Connective.or.group parts).Holds value ↔ ∃ part ∈ parts, part.Holds value := by
  change AnyHolds value parts ↔ _
  induction parts with
  | nil => simp [AnyHolds]
  | cons part rest ih => simp only [AnyHolds, ih, List.mem_cons, exists_eq_or_imp]

theorem reading_iff_holds : c.reading value = true ↔ c.Holds value := by
  induction c using groupInduction with
  | always => exact ⟨fun _ => trivial, fun _ => rfl⟩
  | compare left op right => exact Comparison.holds_iff_relates
  | group connective parts ih =>
    cases connective with
    | and =>
      rw [holds_and, Connective.group, reading, readingAll_eq, List.all_map, List.all_eq_true]
      exact forall₂_congr ih
    | or =>
      rw [holds_or, Connective.group, reading, readingAny_eq, List.any_map, List.any_eq_true]
      exact exists_congr fun part => and_congr_right (ih part)
  | not part ih => rw [reading, Holds, ← ih, Bool.not_eq_true', Bool.not_eq_true]

/-- A condition whose names are all bound has a value, and that is its truth. -/
theorem exists_evaluate_of_closed (closed : c.Closed binding ps) :
    ∃ holds, c.evaluate binding ps = .ok holds ∧
      (holds = true ↔ c.Holds (Operand.value binding ps)) :=
  ⟨_, evaluate_eq_reading fun operand member =>
    Operand.evaluate_eq_value (closed_iff.1 closed operand member), reading_iff_holds⟩

/-! ### Rearranging -/

/-- Conditions that come from each other by permuting the parts of groups and by the laws of De
Morgan and of double negation, at any depth. -/
inductive Rearranged : Condition → Condition → Prop
  | refl (c : Condition) : Rearranged c c
  | symm {c other : Condition} : Rearranged c other → Rearranged other c
  | trans {c between other : Condition} : Rearranged c between → Rearranged between other →
    Rearranged c other
  | permute (connective : Connective) {parts moved : List Condition} : parts.Perm moved →
    Rearranged (connective.group parts) (connective.group moved)
  | deMorgan (connective : Connective) (parts : List Condition) :
    Rearranged (.not (connective.group parts)) (connective.dual.group (parts.map .not))
  | notNot (part : Condition) : Rearranged (.not (.not part)) part
  | inGroup (connective : Connective) (before after : List Condition) {part moved : Condition} :
    Rearranged part moved →
    Rearranged (connective.group (before ++ part :: after))
      (connective.group (before ++ moved :: after))
  | inNot {part moved : Condition} : Rearranged part moved → Rearranged (.not part) (.not moved)

namespace Rearranged

theorem mem_operands_iff (same : c.Rearranged other) :
    operand ∈ c.operands ↔ operand ∈ other.operands := by
  induction same with
  | refl => rfl
  | symm _ ih => exact ih.symm
  | trans _ _ first second => exact first.trans second
  | permute connective perm => simp only [operands_group, List.mem_flatMap, perm.mem_iff]
  | deMorgan connective parts =>
    rw [operands, operands_group, operands_group, List.flatMap_map]
    rfl
  | notNot => rfl
  | inGroup connective before after _ ih =>
    simp only [operands_group, List.flatMap_append, List.flatMap_cons, List.mem_append, ih]
  | inNot _ ih => exact ih

theorem holds_iff (same : c.Rearranged other) : c.Holds value ↔ other.Holds value := by
  induction same with
  | refl => rfl
  | symm _ ih => exact ih.symm
  | trans _ _ first second => exact first.trans second
  | permute connective perm => cases connective <;> simp only [holds_and, holds_or, perm.mem_iff]
  | deMorgan connective parts =>
    cases connective with
    | and => simp [Connective.dual, Holds, holds_and, holds_or]
    | or => simp [Connective.dual, Holds, holds_and, holds_or]
  | notNot part => exact not_not
  | inGroup connective before after _ ih =>
    cases connective <;> simp only [holds_and, holds_or, List.mem_append, List.mem_cons, or_imp,
      forall_and, forall_eq, or_and_right, exists_or, exists_eq_left, ih]
  | inNot _ ih => exact not_congr ih

theorem evaluate_eq (same : c.Rearranged other) (closed : c.Closed binding ps) :
    other.evaluate binding ps = c.evaluate binding ps := by
  have closed' : other.Closed binding ps := by
    rw [closed_iff] at closed ⊢
    exact fun operand member => closed operand (same.mem_operands_iff.2 member)
  obtain ⟨holds, evaluates, truth⟩ := exists_evaluate_of_closed closed
  obtain ⟨holds', evaluates', truth'⟩ := exists_evaluate_of_closed closed'
  rw [evaluates, evaluates', Bool.eq_iff_iff.2 (truth.trans (same.holds_iff.trans truth'.symm))]

end Rearranged

/-- A condition whose names are all bound has a value, which is its truth and is the same however
the condition is rearranged. An evaluation fails only at a name that occurs in the condition and is
not bound, and says which. -/
theorem evaluate_closed (c : Condition) (binding : Binding) (ps : Parameters) :
    (c.Closed binding ps →
      (∃ holds, c.evaluate binding ps = .ok holds ∧
        (holds = true ↔ c.Holds (Operand.value binding ps))) ∧
      ∀ other, c.Rearranged other → other.evaluate binding ps = c.evaluate binding ps) ∧
    ∀ e, c.evaluate binding ps = .error e →
      (∃ ref ∈ c.fieldRefs, Dictionary.find? binding ref.aliasName = none ∧
        e = .unknownAlias ref.aliasName) ∨
      ∃ name ∈ c.parameterNames, ps.get? name = none ∧ e = .unknownParameter name := by
  constructor
  · intro closed
    exact ⟨exists_evaluate_of_closed closed, fun other same => same.evaluate_eq closed⟩
  · intro e failed
    obtain ⟨operand, reaches, unknown⟩ := exists_reaches_of_error failed
    rcases Operand.cause_of_evaluate_eq_error unknown with
      ⟨ref, rfl, unbound, cause⟩ | ⟨name, rfl, unbound, cause⟩
    · exact .inl ⟨ref, mem_fieldRefs.2 reaches.mem_operands, unbound, cause⟩
    · exact .inr ⟨name, mem_parameterNames.2 reaches.mem_operands, unbound, cause⟩

/-- A user of seventeen without a name is not both young and of another name than the limit. To look
at the row of another alias fails, and names that one. -/
theorem evaluate_closed_youngUser :
    let binding : Binding := [("u", .record [("age", .number (.int 17))])]
    let ps : Parameters := ⟨[("limit", .int 18)]⟩
    let young (aliasName : String) : Condition :=
      .compare (.field ⟨aliasName, "age"⟩) .less (.parameter "limit")
    let named : Condition := .compare (.field ⟨"u", "name"⟩) .notEqual (.parameter "limit")
    (not (all [young "u", named])).evaluate binding ps = .ok true ∧
    (any [.not named, .not (young "u")]).evaluate binding ps =
      (not (all [young "u", named])).evaluate binding ps ∧
    ((∃ ref ∈ (all [young "u", young "v"]).fieldRefs,
        Dictionary.find? binding ref.aliasName = none ∧
          ExecutionError.unknownAlias "v" = .unknownAlias ref.aliasName) ∨
      ∃ name ∈ (all [young "u", young "v"]).parameterNames, ps.get? name = none ∧
        ExecutionError.unknownAlias "v" = .unknownParameter name) := by
  intro binding ps young named
  have closed : (not (all [young "u", named])).Closed binding ps := ⟨by decide, by decide⟩
  have same : (not (all [young "u", named])).Rearranged (any [.not named, .not (young "u")]) :=
    .trans (.deMorgan .and _) (.permute .or (.swap _ _ _))
  exact ⟨rfl, ((evaluate_closed _ binding ps).1 closed).2 _ same,
    (evaluate_closed (all [young "u", young "v"]) binding ps).2 _ rfl⟩

end Condition

end Criteria
