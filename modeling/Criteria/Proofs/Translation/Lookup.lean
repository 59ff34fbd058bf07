import Criteria.Translation.Registry
import Mathlib.Data.List.Nodup

/-!
What a registry finds. A handler stands for exactly one type, a registration puts it
in its place or at the end, and a specification gets the handler for its type if that
has what is required of it.
-/

set_option autoImplicit false

namespace Criteria

namespace Registry

variable {Leaf Object : Type} {reg next : Registry Leaf} {handler : Handler Leaf} {type : SpecType}

/-! ### Types -/

theorem handles_of_lookup? (registered : reg.lookup? type = some handler) :
    handler.handles = type := by
  simpa using List.find?_some registered

theorem contains_iff : reg.contains type = true ↔ type ∈ reg.types := by
  simp [contains, lookup?, types]

theorem mem_types_of_lookup? (registered : reg.lookup? type = some handler) : type ∈ reg.types :=
  contains_iff.1 (by rw [contains, registered, Option.isSome_some])

theorem lookup?_eq_none_iff : reg.lookup? type = none ↔ type ∉ reg.types := by
  rw [← contains_iff, contains, Option.not_isSome_iff_eq_none]

/-! ### Registration -/

theorem types_addHandler (reg : Registry Leaf) (handler : Handler Leaf) :
    (reg.addHandler handler).types = reg.types ++ [handler.handles] :=
  List.map_append

theorem lookup?_addHandler (absent : handler.handles ∉ reg.types) (type : SpecType) :
    (reg.addHandler handler).lookup? type =
      if type = handler.handles then some handler else reg.lookup? type := by
  have last : (reg.addHandler handler).lookup? type =
      (reg.lookup? type).or ([handler].find? fun h => h.handles = type) := List.find?_append
  by_cases same : type = handler.handles
  · subst same
    rw [last, lookup?_eq_none_iff.2 absent]
    simp
  · rw [last, List.find?_cons_of_neg (by simpa using Ne.symm same), List.find?_nil, Option.or_none,
      if_neg same]

theorem types_replaceHandler (reg : Registry Leaf) (handler : Handler Leaf) :
    (reg.replaceHandler handler).types = reg.types := by
  unfold types replaceHandler
  rw [List.map_map]
  apply List.map_congr_left
  intro h _
  by_cases same : h.handles = handler.handles <;> simp [same]

theorem lookup?_replaceHandler (present : handler.handles ∈ reg.types) (type : SpecType) :
    (reg.replaceHandler handler).lookup? type =
      if type = handler.handles then some handler else reg.lookup? type := by
  have mapped : (reg.replaceHandler handler).lookup? type = (reg.lookup? type).map fun h =>
      if h.handles = handler.handles then handler else h := by
    unfold lookup? replaceHandler
    rw [List.find?_map]
    congr 2
    funext h
    by_cases same : h.handles = handler.handles <;> simp [same]
  rw [mapped]
  cases registered : reg.lookup? type with
  | none =>
    have different : type ≠ handler.handles := by
      rintro rfl
      exact lookup?_eq_none_iff.1 registered present
    rw [if_neg different, Option.map_none]
  | some found =>
    rw [Option.map_some, handles_of_lookup? registered]
    split <;> rfl

/-- What a registration does that is not refused. -/
structure Registers (reg : Registry Leaf) (handler : Handler Leaf) (next : Registry Leaf) :
    Prop where
  config_eq : next.config = reg.config
  free : reg.config.duplicatePolicy = .reject → handler.handles ∉ reg.types
  types_eq : next.types =
    if handler.handles ∈ reg.types then reg.types else reg.types ++ [handler.handles]
  lookup?_eq : ∀ type, next.lookup? type =
    if type = handler.handles then some handler else reg.lookup? type

theorem registers_of_register (registered : reg.register handler = .ok next) :
    reg.Registers handler next := by
  unfold register at registered
  cases known : reg.lookup? handler.handles with
  | none =>
    rw [known] at registered
    cases registered
    have absent := lookup?_eq_none_iff.1 known
    exact ⟨rfl, fun _ => absent, (types_addHandler reg handler).trans (if_neg absent).symm,
      lookup?_addHandler absent⟩
  | some existing =>
    have present := mem_types_of_lookup? known
    cases policy : reg.config.duplicatePolicy with
    | reject => simp [known, policy] at registered
    | replace =>
      simp only [known, policy] at registered
      cases registered
      refine ⟨rfl, ?_, ?_, lookup?_replaceHandler present⟩
      · intro rejects
        cases policy.symm.trans rejects
      · rw [types_replaceHandler, if_pos present]

/-- A registration is refused exactly if duplicates are to be rejected and the type has a handler. -/
theorem register_eq_error_iff {e : RegistrationError} : reg.register handler = .error e ↔
    reg.config.duplicatePolicy = .reject ∧ ∃ existing, reg.lookup? handler.handles = some existing ∧
      e = ⟨handler.handles, existing.name, handler.name⟩ := by
  unfold register
  cases reg.lookup? handler.handles with
  | none => simp
  | some existing =>
    cases reg.config.duplicatePolicy with
    | reject => simp [eq_comm]
    | replace => simp

/-! ### The handler for a specification -/

section

variable [SpecLeaf Leaf Object] {spec : Spec Leaf} {required : List Capability}
  {e : TranslationError} {make : ConditionMaker Leaf}

/-- The specification's type has no handler. -/
def noHandler (spec : Spec Leaf) : TranslationError :=
  { type := spec.type, reason := .noHandler }

def lacking (spec : Spec Leaf) (handler : Handler Leaf) (capability : Capability) :
    TranslationError :=
  { type := spec.type, reason := .missingCapability handler.name capability }

theorem handlerFor_of_lookup?_eq_none (absent : reg.lookup? spec.type = none) :
    reg.handlerFor spec required = .error (noHandler spec) := by
  simp [handlerFor, absent, noHandler]

theorem handlerFor_of_lookup? (registered : reg.lookup? spec.type = some handler) :
    reg.handlerFor spec required =
      match required.find? fun capability => !handler.hasCapability capability with
      | none => .ok handler
      | some missing => .error (lacking spec handler missing) := by
  unfold handlerFor
  rw [registered]
  rfl

theorem handlerFor_eq_ok_iff : reg.handlerFor spec required = .ok handler ↔
    reg.lookup? spec.type = some handler ∧
      ∀ capability ∈ required, handler.hasCapability capability = true := by
  cases registered : reg.lookup? spec.type with
  | none => simp [handlerFor_of_lookup?_eq_none registered]
  | some found =>
    rw [handlerFor_of_lookup? registered]
    cases first : required.find? fun capability => !found.hasCapability capability with
    | none =>
      have capable : ∀ capability ∈ required, found.hasCapability capability = true := by
        simpa using first
      constructor
      · rintro ⟨⟩
        exact ⟨rfl, capable⟩
      · rintro ⟨⟨⟩, -⟩
        rfl
    | some missing =>
      have lacks : found.hasCapability missing = false := by simpa using List.find?_some first
      constructor
      · rintro ⟨⟩
      · rintro ⟨⟨⟩, capable⟩
        cases lacks.symm.trans (capable missing (List.mem_of_find?_eq_some first))

theorem handlerFor_eq_error_iff : reg.handlerFor spec required = .error e ↔
    (reg.lookup? spec.type = none ∧ e = noHandler spec) ∨
    ∃ handler before missing after, reg.lookup? spec.type = some handler ∧
      required = before ++ missing :: after ∧
      (∀ capability ∈ before, handler.hasCapability capability = true) ∧
      handler.hasCapability missing = false ∧ e = lacking spec handler missing := by
  cases registered : reg.lookup? spec.type with
  | none =>
    rw [handlerFor_of_lookup?_eq_none registered]
    constructor
    · rintro ⟨⟩
      exact .inl ⟨rfl, rfl⟩
    · rintro (⟨-, rfl⟩ | ⟨_, _, _, _, ⟨⟩, -⟩)
      rfl
  | some found =>
    have first_iff : ∀ missing,
        required.find? (fun capability => !found.hasCapability capability) = some missing ↔
          found.hasCapability missing = false ∧ ∃ before after,
            required = before ++ missing :: after ∧
            ∀ capability ∈ before, found.hasCapability capability = true := by
      simp [List.find?_eq_some_iff_append]
    rw [handlerFor_of_lookup? registered]
    constructor
    · intro failed
      cases first : required.find? fun capability => !found.hasCapability capability with
      | none =>
        rw [first] at failed
        cases failed
      | some missing =>
        rw [first] at failed
        cases failed
        obtain ⟨lacks, before, after, split, capable⟩ := (first_iff missing).1 first
        exact .inr ⟨found, before, missing, after, rfl, split, capable, lacks, rfl⟩
    · rintro (⟨⟨⟩, -⟩ | ⟨_, before, missing, after, ⟨⟩, split, capable, lacks, rfl⟩)
      rw [(first_iff missing).2 ⟨lacks, before, after, split, capable⟩]

theorem conditionHandlerFor_of_lookup?_eq_none (absent : reg.lookup? spec.type = none) :
    reg.conditionHandlerFor spec = .error (noHandler spec) := by
  unfold conditionHandlerFor
  rw [handlerFor_of_lookup?_eq_none absent]

theorem conditionHandlerFor_of_lookup? (registered : reg.lookup? spec.type = some handler) :
    reg.conditionHandlerFor spec =
      match handler.hasCapability .condition, handler.makeCondition? with
      | true, some make => .ok (handler, make)
      | _, _ => .error (lacking spec handler .condition) := by
  unfold conditionHandlerFor
  rw [handlerFor_of_lookup? registered]
  cases capable : handler.hasCapability .condition with
  | false => simp [capable]
  | true =>
    rw [List.find?_cons_of_neg (by simpa using capable), List.find?_nil]
    cases makes : handler.makeCondition? with
    | none => simp only [makes, lacking]
    | some make => simp only [makes]

theorem conditionHandlerFor_eq_ok_iff :
    reg.conditionHandlerFor spec = .ok (handler, make) ↔
      reg.lookup? spec.type = some handler ∧ handler.hasCapability .condition = true ∧
        handler.makeCondition? = some make := by
  cases registered : reg.lookup? spec.type with
  | none => simp [conditionHandlerFor_of_lookup?_eq_none registered]
  | some found =>
    rw [conditionHandlerFor_of_lookup? registered]
    constructor
    · intro chosen
      split at chosen
      · next capable makes =>
        cases chosen
        exact ⟨rfl, capable, makes⟩
      · cases chosen
    · rintro ⟨⟨⟩, capable, makes⟩
      rw [capable, makes]

/-- A handler that claims to make conditions, and has no way to make them, counts as one that does
not claim it. -/
theorem conditionHandlerFor_eq_error_iff : reg.conditionHandlerFor spec = .error e ↔
    (reg.lookup? spec.type = none ∧ e = noHandler spec) ∨
    ∃ handler, reg.lookup? spec.type = some handler ∧
      (handler.hasCapability .condition = true → handler.makeCondition? = none) ∧
      e = lacking spec handler .condition := by
  cases registered : reg.lookup? spec.type with
  | none =>
    rw [conditionHandlerFor_of_lookup?_eq_none registered]
    constructor
    · rintro ⟨⟩
      exact .inl ⟨rfl, rfl⟩
    · rintro (⟨-, rfl⟩ | ⟨_, ⟨⟩, -⟩)
      rfl
  | some found =>
    rw [conditionHandlerFor_of_lookup? registered]
    constructor
    · intro failed
      split at failed
      · cases failed
      · next unfit =>
        cases failed
        refine .inr ⟨found, rfl, fun capable => ?_, rfl⟩
        exact Option.eq_none_iff_forall_ne_some.2 fun make makes => unfit make capable makes
    · rintro (⟨⟨⟩, -⟩ | ⟨_, ⟨⟩, incapable, rfl⟩)
      split
      · next capable makes => cases (incapable capable).symm.trans makes
      · rfl

end

end Registry

end Criteria
