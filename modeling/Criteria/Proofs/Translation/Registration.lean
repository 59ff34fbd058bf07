import Criteria.Proofs.FirstOfEach
import Criteria.Proofs.Spec.Tree
import Criteria.Proofs.Translation.Index

/-!
Registries by the registrations that made them. However registrations follow each
other, and wherever a row of them stops at a duplicate, a registry is what the
handlers that were admitted make of it: each type stands once, where it came first,
for its first handler if duplicates are rejected and for its last one if they replace.
-/

set_option autoImplicit false

namespace Criteria

variable {Leaf Object : Type}

namespace Registry

variable {reg mid after : Registry Leaf} {handler : Handler Leaf}
  {handlers log more : List (Handler Leaf)}

/-- The handlers that are registered before the first that is refused. -/
def admittedOf (reg : Registry Leaf) : List (Handler Leaf) → List (Handler Leaf)
  | [] => []
  | handler :: rest =>
    match reg.register handler with
    | .ok next => handler :: next.admittedOf rest
    | .error _ => []

theorem registerAll_cons_of_ok {next : Registry Leaf} (registered : reg.register handler = .ok next)
    (rest : List (Handler Leaf)) : reg.registerAll (handler :: rest) = next.registerAll rest := by
  rw [registerAll, registered]

theorem registerAll_cons_of_error {e : RegistrationError} (refused : reg.register handler = .error e)
    (rest : List (Handler Leaf)) : reg.registerAll (handler :: rest) = (.error e, reg) := by
  rw [registerAll, refused]

theorem registerAll_append (done : reg.registerAll log = (.ok (), mid)) (more : List (Handler Leaf)) :
    reg.registerAll (log ++ more) = mid.registerAll more := by
  induction log generalizing reg with
  | nil =>
    cases done
    rfl
  | cons handler rest ih =>
    cases outcome : reg.register handler with
    | error e =>
      rw [registerAll_cons_of_error outcome] at done
      cases done
    | ok next =>
      rw [registerAll_cons_of_ok outcome] at done
      rw [List.cons_append, registerAll_cons_of_ok outcome, ih done]

theorem config_registerAll (reg : Registry Leaf) (handlers : List (Handler Leaf)) :
    (reg.registerAll handlers).2.config = reg.config := by
  induction handlers generalizing reg with
  | nil => rfl
  | cons handler rest ih =>
    cases outcome : reg.register handler with
    | error e => rw [registerAll_cons_of_error outcome]
    | ok next =>
      rw [registerAll_cons_of_ok outcome, ih, (registers_of_register outcome).config_eq]

/-- The handlers that are admitted have the whole effect, and none of them is refused. -/
theorem registerAll_admittedOf (reg : Registry Leaf) (handlers : List (Handler Leaf)) :
    reg.registerAll (reg.admittedOf handlers) = (.ok (), (reg.registerAll handlers).2) := by
  induction handlers generalizing reg with
  | nil => rfl
  | cons handler rest ih =>
    unfold admittedOf
    cases outcome : reg.register handler with
    | error e => rw [registerAll_cons_of_error outcome, registerAll]
    | ok next =>
      rw [registerAll_cons_of_ok outcome, registerAll_cons_of_ok outcome, ih]

/-! ### What admitted handlers make of a registry -/

structure MadeBy (reg : Registry Leaf) (log : List (Handler Leaf)) : Prop where
  types_eq : reg.types = (firstOfEach Handler.handles log).map Handler.handles
  last_eq : ∀ type, reg.lookup? type = log.reverse.find? fun h => h.handles = type
  first_eq : reg.config.duplicatePolicy = .reject →
    ∀ type, reg.lookup? type = log.find? fun h => h.handles = type

theorem MadeBy.register {next : Registry Leaf} (made : reg.MadeBy log)
    (registered : reg.register handler = .ok next) : next.MadeBy (log ++ [handler]) := by
  have does := registers_of_register registered
  constructor
  · rw [does.types_eq, made.types_eq, firstOfEach_append_singleton]
    simp only [mem_map_firstOfEach]
    split
    · rfl
    · rw [List.map_append, List.map_singleton]
  · intro type
    rw [does.lookup?_eq, List.reverse_append, List.reverse_singleton, List.singleton_append]
    by_cases same : type = handler.handles
    · rw [if_pos same, List.find?_cons_of_pos (by simpa using same.symm)]
    · rw [if_neg same, List.find?_cons_of_neg (by simpa using Ne.symm same), made.last_eq]
  · intro rejects type
    rw [does.config_eq] at rejects
    rw [does.lookup?_eq, List.find?_append, ← made.first_eq rejects]
    by_cases same : type = handler.handles
    · rw [if_pos same, same, lookup?_eq_none_iff.2 (does.free rejects)]
      simp
    · rw [if_neg same, List.find?_cons_of_neg (by simpa using Ne.symm same), List.find?_nil,
        Option.or_none]

theorem MadeBy.registerAll (made : reg.MadeBy log) (done : reg.registerAll more = (.ok (), after)) :
    after.MadeBy (log ++ more) := by
  induction more generalizing reg log with
  | nil =>
    cases done
    rwa [List.append_nil]
  | cons handler rest ih =>
    cases outcome : reg.register handler with
    | error e =>
      rw [registerAll_cons_of_error outcome] at done
      cases done
    | ok next =>
      rw [registerAll_cons_of_ok outcome] at done
      rw [List.append_cons]
      exact ih (made.register outcome) done

theorem madeBy_nil (config : RegistryConfig) :
    ({ config := config } : Registry Leaf).MadeBy [] :=
  ⟨rfl, fun _ => rfl, fun _ _ => rfl⟩

theorem MadeBy.types_nodup (made : reg.MadeBy log) : reg.types.Nodup := by
  rw [made.types_eq]
  exact nodup_map_firstOfEach _ _

/-! ### Rows of registrations -/

theorem register_of_replace (replaces : reg.config.duplicatePolicy = .replace)
    (handler : Handler Leaf) : ∃ next, reg.register handler = .ok next := by
  cases outcome : reg.register handler with
  | ok next => exact ⟨next, rfl⟩
  | error e => cases replaces.symm.trans (register_eq_error_iff.1 outcome).1

theorem admittedOf_of_replace (replaces : reg.config.duplicatePolicy = .replace)
    (handlers : List (Handler Leaf)) : reg.admittedOf handlers = handlers := by
  induction handlers generalizing reg with
  | nil => rfl
  | cons handler rest ih =>
    obtain ⟨next, registered⟩ := register_of_replace replaces handler
    have still : next.config.duplicatePolicy = .replace := by
      rw [(registers_of_register registered).config_eq, replaces]
    simp only [admittedOf, registered, ih still]

/-- A row of handlers of different types that is not registered as a whole is registered up to the
first whose type has had a handler from the start. -/
theorem registerAll_eq_error {e : RegistrationError}
    (distinct : (handlers.map Handler.handles).Nodup)
    (failed : reg.registerAll handlers = (.error e, after)) :
    ∃ before refused rest, handlers = before ++ refused :: rest ∧
      (∀ h ∈ before, h.handles ∉ reg.types) ∧ refused.handles ∈ reg.types ∧
      reg.registerAll before = (.ok (), after) ∧ after.register refused = .error e := by
  induction handlers generalizing reg with
  | nil => cases failed
  | cons handler others ih =>
    rw [List.map_cons, List.nodup_cons] at distinct
    cases outcome : reg.register handler with
    | error refusal =>
      obtain ⟨-, existing, known, -⟩ := register_eq_error_iff.1 outcome
      have present := mem_types_of_lookup? known
      rw [registerAll_cons_of_error outcome] at failed
      cases failed
      exact ⟨[], handler, others, rfl, List.forall_mem_nil _, present, rfl, outcome⟩
    | ok next =>
      rw [registerAll_cons_of_ok outcome] at failed
      obtain ⟨before, refused, rest, rfl, free, present, registered, refusal⟩ := ih distinct.2 failed
      have does := registers_of_register outcome
      have rejects : reg.config.duplicatePolicy = .reject := by
        have still := config_registerAll next before
        rw [registered, does.config_eq] at still
        rw [← still]
        exact (register_eq_error_iff.1 refusal).1
      rw [does.types_eq, if_neg (does.free rejects)] at free present
      refine ⟨handler :: before, refused, rest, rfl, ?_, ?_, ?_, refusal⟩
      · intro h member
        rcases List.mem_cons.1 member with rfl | earlier
        · exact does.free rejects
        · exact fun listed => free h earlier (List.mem_append_left _ listed)
      · -- the handlers before it have other types, so its own was there at the start
        have different : refused.handles ≠ handler.handles := by
          intro same
          apply distinct.1
          rw [← same]
          exact List.mem_map_of_mem (List.mem_append_right _ List.mem_cons_self)
        simpa [different] using present
      · rw [registerAll_cons_of_ok outcome, registered]

end Registry

/-! ### Histories -/

/-- The steps by which registries are made. A registry that is frozen, or opened again, keeps what
it has. -/
inductive RegistrationStep (Leaf : Type) where
  | register (handler : Handler Leaf)
  | registerLogical
  | freeze
  | reopen

variable [SpecLeaf Leaf Object]

def RegistrationStep.handlers : RegistrationStep Leaf → List (Handler Leaf)
  | .register handler => [handler]
  | .registerLogical => Registry.logicalHandlers
  | .freeze | .reopen => []

def IndexedRegistry.perform (indexed : IndexedRegistry Leaf) (history : List (RegistrationStep Leaf)) :
    IndexedRegistry Leaf :=
  history.foldl (fun indexed step => (indexed.registerAll step.handlers).2) indexed

namespace Registry

def perform (reg : Registry Leaf) (history : List (RegistrationStep Leaf)) : Registry Leaf :=
  history.foldl (fun reg step => (reg.registerAll step.handlers).2) reg

/-- The handlers whose registration was not refused, in the order of the registrations. -/
def admitted (reg : Registry Leaf) : List (RegistrationStep Leaf) → List (Handler Leaf)
  | [] => []
  | step :: rest =>
    reg.admittedOf step.handlers ++ (reg.registerAll step.handlers).2.admitted rest

theorem registerAll_admitted (reg : Registry Leaf) (history : List (RegistrationStep Leaf)) :
    reg.registerAll (reg.admitted history) = (.ok (), reg.perform history) := by
  induction history generalizing reg with
  | nil => rfl
  | cons step rest ih =>
    unfold admitted
    rw [registerAll_append (reg.registerAll_admittedOf step.handlers), ih]
    rfl

theorem admitted_of_replace {reg : Registry Leaf} (replaces : reg.config.duplicatePolicy = .replace)
    (history : List (RegistrationStep Leaf)) :
    reg.admitted history = history.flatMap RegistrationStep.handlers := by
  induction history generalizing reg with
  | nil => rfl
  | cons step rest ih =>
    have still : (reg.registerAll step.handlers).2.config.duplicatePolicy = .replace := by
      rw [config_registerAll, replaces]
    rw [admitted, admittedOf_of_replace replaces, ih still, List.flatMap_cons]

end Registry

theorem IndexedRegistry.InStep.perform {indexed : IndexedRegistry Leaf} {reg : Registry Leaf}
    (inStep : indexed.InStep reg) (history : List (RegistrationStep Leaf)) :
    (indexed.perform history).InStep (reg.perform history) := by
  induction history generalizing indexed reg with
  | nil => exact inStep
  | cons step rest ih => exact ih (inStep.registerAll step.handlers).2

namespace Registry

/-- Each type has the first of the handlers for it; further ones are refused, and leave the registry
as it is. -/
structure Rejecting (reg : Registry Leaf) (admitted : List (Handler Leaf)) : Prop where
  lookup?_eq : ∀ type, reg.lookup? type = admitted.find? fun h => h.handles = type
  refuses : ∀ handler existing, reg.lookup? handler.handles = some existing →
    reg.registerAll [handler] = (.error ⟨handler.handles, existing.name, handler.name⟩, reg)
  admits : ∀ handler, reg.contains handler.handles = false →
    (reg.registerAll [handler]).1 = .ok ()

/-- Each type has the last of the handlers for it, and none is refused. -/
structure Replacing (reg : Registry Leaf) (admitted : List (Handler Leaf)) : Prop where
  lookup?_eq : ∀ type, reg.lookup? type = admitted.reverse.find? fun h => h.handles = type
  admits : ∀ handler, (reg.registerAll [handler]).1 = .ok ()

theorem MadeBy.rejecting {reg : Registry Leaf} {log : List (Handler Leaf)} (made : reg.MadeBy log)
    (rejects : reg.config.duplicatePolicy = .reject) : reg.Rejecting log where
  lookup?_eq := made.first_eq rejects
  refuses handler existing known :=
    registerAll_cons_of_error (register_eq_error_iff.2 ⟨rejects, existing, known, rfl⟩) []
  admits handler absent := by
    cases outcome : reg.register handler with
    | ok next => rw [registerAll_cons_of_ok outcome, Registry.registerAll]
    | error e =>
      obtain ⟨-, existing, known, -⟩ := register_eq_error_iff.1 outcome
      rw [contains, known] at absent
      cases absent

theorem MadeBy.replacing {reg : Registry Leaf} {log : List (Handler Leaf)} (made : reg.MadeBy log)
    (replaces : reg.config.duplicatePolicy = .replace) : reg.Replacing log where
  lookup?_eq := made.last_eq
  admits handler := by
    obtain ⟨next, registered⟩ := register_of_replace replaces handler
    rw [registerAll_cons_of_ok registered, Registry.registerAll]

/-- A registry finds the handler for the exact type of a specification, if it can do all that is
required; else it says that there is none, or what it lacks first. -/
structure Selecting (reg : Registry Leaf) : Prop where
  handlerFor_ok : ∀ spec required handler, reg.handlerFor spec required = .ok handler ↔
    reg.lookup? spec.type = some handler ∧
      ∀ capability ∈ required, handler.hasCapability capability = true
  handlerFor_error : ∀ spec required e, reg.handlerFor spec required = .error e ↔
    (reg.lookup? spec.type = none ∧ e = noHandler spec) ∨
    ∃ handler before missing after, reg.lookup? spec.type = some handler ∧
      required = before ++ missing :: after ∧
      (∀ capability ∈ before, handler.hasCapability capability = true) ∧
      handler.hasCapability missing = false ∧ e = lacking spec handler missing
  conditionHandlerFor_ok : ∀ spec handler make,
    reg.conditionHandlerFor spec = .ok (handler, make) ↔
      reg.lookup? spec.type = some handler ∧ handler.hasCapability .condition = true ∧
        handler.makeCondition? = some make
  conditionHandlerFor_error : ∀ spec e, reg.conditionHandlerFor spec = .error e ↔
    (reg.lookup? spec.type = none ∧ e = noHandler spec) ∨
    ∃ handler, reg.lookup? spec.type = some handler ∧
      (handler.hasCapability .condition = true → handler.makeCondition? = none) ∧
      e = lacking spec handler .condition

theorem selecting (reg : Registry Leaf) : reg.Selecting where
  handlerFor_ok _ _ _ := handlerFor_eq_ok_iff
  handlerFor_error _ _ _ := handlerFor_eq_error_iff
  conditionHandlerFor_ok _ _ _ := conditionHandlerFor_eq_ok_iff
  conditionHandlerFor_error _ _ := conditionHandlerFor_eq_error_iff

/-- Whatever steps have been taken to make a registry, its table and its order are in step: the
order has each type of the table once, by the first handler that was admitted for it. The handler
for a type is the first one, and duplicates are refused and change nothing, or it is the last one,
and all are admitted. The logical handlers are registered up to the first whose type is taken. -/
theorem perform_faithful (policy : DuplicatePolicy) (history : List (RegistrationStep Leaf)) :
    let opened : Registry Leaf := { config := ⟨policy⟩ }
    let reg := opened.perform history
    let indexed := ({ config := ⟨policy⟩ } : IndexedRegistry Leaf).perform history
    let admitted := opened.admitted history
    indexed.InStep reg ∧
    (∀ handlers, (indexed.registerAll handlers).1 = (reg.registerAll handlers).1) ∧
    indexed.order.Nodup ∧ (∀ type, type ∈ indexed.order ↔ type ∈ indexed.table) ∧
    indexed.order = (firstOfEach Handler.handles admitted).map Handler.handles ∧
    indexed.table.size = indexed.order.length ∧ reg.size = indexed.order.length ∧
    (policy = .reject → reg.Rejecting admitted) ∧
    (policy = .replace →
      reg.Replacing admitted ∧ admitted = history.flatMap RegistrationStep.handlers) ∧
    (∀ e after, reg.registerAll logicalHandlers = (.error e, after) →
      ∃ before refused rest, logicalHandlers = before ++ refused :: rest ∧
        (∀ h ∈ before, h.handles ∉ reg.types) ∧ refused.handles ∈ reg.types ∧
        reg.registerAll before = (.ok (), after) ∧ after.register refused = .error e) ∧
    reg.Selecting := by
  intro opened reg indexed admitted
  have inStep : indexed.InStep reg := (IndexedRegistry.inStep_empty ⟨policy⟩).perform history
  have replayed : opened.registerAll admitted = (.ok (), reg) := opened.registerAll_admitted history
  have made : reg.MadeBy admitted := (madeBy_nil ⟨policy⟩).registerAll replayed
  have config : reg.config = ⟨policy⟩ := by
    have kept := opened.config_registerAll admitted
    rwa [replayed] at kept
  have size : reg.size = indexed.order.length := by
    rw [inStep.order_eq, types, List.length_map, Registry.size]
  refine ⟨inStep, fun handlers => (inStep.registerAll handlers).1, ?_, ?_, ?_, ?_, size, ?_, ?_, ?_,
    reg.selecting⟩
  · rw [inStep.order_eq]
    exact made.types_nodup
  · intro type
    rw [inStep.order_eq, inStep.mem_table_iff]
  · rw [inStep.order_eq, made.types_eq]
  · rw [inStep.size_eq made.types_nodup, size]
  · rintro rfl
    exact made.rejecting (by rw [config])
  · rintro rfl
    exact ⟨made.replacing (by rw [config]), admitted_of_replace rfl history⟩
  · intro e after failed
    have distinct : ([.allOf, .anyOf, .not, .any] : List SpecType).Nodup := by decide
    exact registerAll_eq_error distinct failed

/-- Claims to be able to do anything, and can do nothing. -/
def boastful : Handler Marker where
  name := "Boastful"
  handles := .anyOf
  hasCapability _ := true

theorem perform_faithful_boastful :
    let history := [.register boastful, .freeze, .reopen]
    let refusing := ({} : Registry Marker).perform history
    let replacing := ({ config := ⟨.replace⟩ } : Registry Marker).perform
      (history ++ [.registerLogical])
    refusing.lookup? .anyOf = some boastful ∧
    (∃ before refused rest, logicalHandlers = before ++ refused :: rest ∧
      refused.handles ∈ refusing.types ∧
      refusing.registerAll before = (.ok (), (refusing.registerAll logicalHandlers).2)) ∧
    refusing.conditionHandlerFor (.anyOf .any []) =
      .error (lacking (.anyOf .any []) boastful .condition) ∧
    replacing.types = [.anyOf, .allOf, .not, .any] ∧ replacing.lookup? .anyOf = some .anyOf := by
  intro history refusing replacing
  obtain ⟨-, -, -, -, -, -, -, rejects, -, stops, selects⟩ := perform_faithful .reject history
  obtain ⟨inStep, -, -, -, order, -, -, -, replaces, -⟩ :=
    perform_faithful .replace (history ++ [.registerLogical])
  have found : refusing.lookup? .anyOf = some boastful := ((rejects rfl).lookup?_eq .anyOf).trans rfl
  refine ⟨found, ?_, ?_, ?_, ?_⟩
  · obtain ⟨before, refused, rest, split, -, taken, registered, -⟩ := stops _ _ rfl
    exact ⟨before, refused, rest, split, taken, registered⟩
  · exact (selects.conditionHandlerFor_error _ _).2 (.inr ⟨boastful, found, fun _ => rfl, rfl⟩)
  · exact inStep.order_eq.symm.trans (order.trans rfl)
  · exact ((replaces rfl).1.lookup?_eq .anyOf).trans rfl

end Registry

end Criteria
