import Criteria.Proofs.Translation.Lookup

/-! Translations step by step: what a translation made of others gives, and when a registry makes
a condition at all. -/

set_option autoImplicit false

namespace Criteria

namespace Translation

variable {α β : Type} {ctx mid after : Context} {t : Translation α} {next : α → Translation β}

theorem bind_of_ok {value : α} (ran : t ctx = (.ok value, mid)) :
    (t >>= next) ctx = next value mid := by
  simp only [bind, ExceptT.bind, ExceptT.mk, StateT.bind]
  rw [ran]
  rfl

theorem bind_of_error {e : TranslationError} (ran : t ctx = (.error e, mid)) :
    (t >>= next) ctx = (.error e, mid) := by
  simp only [bind, ExceptT.bind, ExceptT.mk, StateT.bind]
  rw [ran]
  rfl

theorem bind_eq_ok {result : β} (ran : (t >>= next) ctx = (.ok result, after)) :
    ∃ value mid, t ctx = (.ok value, mid) ∧ next value mid = (.ok result, after) := by
  cases first : t ctx with
  | mk outcome mid =>
    cases outcome with
    | error e =>
      rw [bind_of_error first] at ran
      cases ran
    | ok value =>
      rw [bind_of_ok first] at ran
      exact ⟨value, mid, rfl, ran⟩

theorem within_eq_ok_iff {handler : String} {value : α} :
    within handler t ctx = (.ok value, after) ↔ t ctx = (.ok value, after) := by
  unfold within
  cases ran : t ctx with
  | mk outcome mid =>
    cases outcome with
    | error e => constructor <;> intro same <;> cases same
    | ok value => exact Iff.rfl

/-- In a traversal that succeeds, each step has succeeded. -/
theorem ran_of_mapM {ts : List (Translation α)} {step : Translation α → Translation β}
    {values : List β} (ran : ts.mapM step ctx = (.ok values, after)) :
    ∀ t ∈ ts, ∃ ctx value after, step t ctx = (.ok value, after) := by
  induction ts generalizing ctx values after with
  | nil => exact fun t member => nomatch member
  | cons t rest ih =>
    rw [List.mapM_cons] at ran
    obtain ⟨value, mid, head, ran⟩ := bind_eq_ok ran
    obtain ⟨others, last, tail, -⟩ := bind_eq_ok ran
    intro other member
    rcases List.mem_cons.1 member with rfl | member
    · exact ⟨ctx, value, mid, head⟩
    · exact ih tail other member

end Translation

/-- The handler that the library has for a type. -/
def Handler.standard? {Leaf Object : Type} [SpecLeaf Leaf Object] :
    SpecType → Option (Handler Leaf)
  | .allOf => some .allOf
  | .anyOf => some .anyOf
  | .not => some .not
  | .any => some .any
  | .field => some .fieldCompare
  | .leaf _ => none

namespace Registry

variable {Leaf Object : Type} [SpecLeaf Leaf Object] {reg : Registry Leaf} {spec : Spec Leaf}
  {children : List (Translation Condition)} {ctx after : Context}

/-- The registry has the standard handlers, and may have others for leaves. -/
def HasStandard (reg : Registry Leaf) : Prop :=
  ∀ type handler, Handler.standard? type = some handler → reg.lookup? type = some handler

/-- The registry that has the standard handlers and no others. -/
def standard : Registry Leaf where
  handlers := logicalHandlers ++ [.fieldCompare]

theorem lookup?_standard (type : SpecType) :
    (standard : Registry Leaf).lookup? type = Handler.standard? type := by
  cases type <;> rfl

theorem hasStandard_standard : (standard : Registry Leaf).HasStandard :=
  fun type _ known => (lookup?_standard type).trans known

theorem conditionHandlerFor_eq_ok {handler : Handler Leaf} {make : ConditionMaker Leaf}
    (chosen : reg.conditionHandlerFor spec = .ok (handler, make)) :
    reg.lookup? spec.type = some handler ∧ handler.makeCondition? = some make := by
  obtain ⟨found, -, makes⟩ := conditionHandlerFor_eq_ok_iff.1 chosen
  exact ⟨found, makes⟩

/-- A condition is made only by the handler for the specification. -/
theorem makeCondition_eq_ok {c : Condition}
    (made : reg.makeCondition spec children ctx = (.ok c, after)) :
    ∃ handler make, reg.lookup? spec.type = some handler ∧ handler.makeCondition? = some make ∧
      make spec children ctx = (.ok c, after) := by
  unfold makeCondition at made
  cases chosen : reg.conditionHandlerFor spec with
  | error e =>
    rw [chosen] at made
    cases made
  | ok pair =>
    rw [chosen] at made
    obtain ⟨found, makes⟩ := conditionHandlerFor_eq_ok chosen
    exact ⟨pair.1, pair.2, found, makes, made⟩

end Registry

/-! ### Matching -/

section

variable {Leaf Object : Type} [SpecLeaf Leaf Object] {regs : Registries Leaf} {reg : Registry Leaf}
  {spec : Spec Leaf} {ctx after : Context} {c : Condition}

/-- All is put back but the registry that the handlers have left the context with. -/
theorem Registries.matchSpec_of_error {e : TranslationError}
    (failed : regs.translate spec ctx = (.error e, after)) :
    regs.matchSpec spec ctx = (.error e, { ctx with registry := after.registry }) := by
  unfold matchSpec Translation.andWhere
  rw [failed]

theorem Registries.matchSpec_of_ok (translated : regs.translate spec ctx = (.ok c, after)) :
    regs.matchSpec spec ctx = (.ok (), after.andWhere c) := by
  unfold matchSpec Translation.andWhere
  rw [translated]

theorem Registry.matchSpec_of_error {e : TranslationError}
    (failed : reg.translate spec ctx = (.error e, after)) :
    reg.matchSpec spec ctx = (.error e, { ctx with registry := after.registry }) :=
  Registries.matchSpec_of_error failed

theorem Registry.matchSpec_of_ok (translated : reg.translate spec ctx = (.ok c, after)) :
    reg.matchSpec spec ctx = (.ok (), after.andWhere c) :=
  Registries.matchSpec_of_ok translated

end

end Criteria
