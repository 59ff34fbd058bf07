import Criteria.Json.Decoder
import Criteria.Translation.Handler

/-! Registries: at most one handler for each type of specification. A context refers to one of
them, and each node of a specification is translated by the one that the context refers to then. -/

set_option autoImplicit false

namespace Criteria

/-- What happens when a second handler is registered for a type. -/
inductive DuplicatePolicy where
  | reject
  | replace
  deriving DecidableEq

namespace DuplicatePolicy

def name : DuplicatePolicy → String
  | .reject => "reject"
  | .replace => "replace"

def named? : String → Option DuplicatePolicy
  | "reject" => some .reject
  | "replace" => some .replace
  | _ => none

end DuplicatePolicy

structure RegistryConfig where
  duplicatePolicy : DuplicatePolicy := .reject
  deriving DecidableEq

namespace RegistryConfig

def encode (config : RegistryConfig) : Json :=
  .record [("duplicate_policy", .text config.duplicatePolicy.name)]

def decoder : Decoder RegistryConfig
  | depth + 1, document => do
    let [policy] ← Decoder.fields ["duplicate_policy"] 0 document | none
    let policy ← Decoder.withDefault .reject (.constant DuplicatePolicy.named?) depth policy
    return ⟨policy⟩
  | 0, _ => none

end RegistryConfig

/-- A second handler for a type was refused. -/
structure RegistrationError where
  type : SpecType
  existing : String
  rejected : String
  deriving DecidableEq

def RegistrationError.message (e : RegistrationError) : String :=
  e.type.name ++ " already handled by " ++ e.existing ++ "; refusing to register " ++ e.rejected

structure Registry (Leaf : Type) where
  config : RegistryConfig := {}
  /-- In the order in which their types were first registered. -/
  handlers : List (Handler Leaf) := []

namespace Registry

variable {Leaf Object : Type}

def lookup? (reg : Registry Leaf) (type : SpecType) : Option (Handler Leaf) :=
  reg.handlers.find? fun h => h.handles = type

def contains (reg : Registry Leaf) (type : SpecType) : Bool :=
  (reg.lookup? type).isSome

def types (reg : Registry Leaf) : List SpecType :=
  reg.handlers.map Handler.handles

def size (reg : Registry Leaf) : Nat :=
  reg.handlers.length

def isEmpty (reg : Registry Leaf) : Bool :=
  reg.handlers.isEmpty

/-- Puts a handler in the place of the one for its type. -/
def replaceHandler (reg : Registry Leaf) (handler : Handler Leaf) : Registry Leaf :=
  { reg with handlers := reg.handlers.map fun h => if h.handles = handler.handles then handler else h }

def addHandler (reg : Registry Leaf) (handler : Handler Leaf) : Registry Leaf :=
  { reg with handlers := reg.handlers ++ [handler] }

/-- Registers a handler. A registration that is refused changes nothing. -/
def register (reg : Registry Leaf) (handler : Handler Leaf) :
    Except RegistrationError (Registry Leaf) :=
  match reg.lookup? handler.handles with
  | none => .ok (reg.addHandler handler)
  | some existing =>
    match reg.config.duplicatePolicy with
    | .replace => .ok (reg.replaceHandler handler)
    | .reject => .error ⟨handler.handles, existing.name, handler.name⟩

/-- Registers handlers up to the first that is refused. -/
def registerAll (reg : Registry Leaf) :
    List (Handler Leaf) → Except RegistrationError Unit × Registry Leaf
  | [] => (.ok (), reg)
  | handler :: rest =>
    match reg.register handler with
    | .ok reg => reg.registerAll rest
    | .error e => (.error e, reg)

def logicalHandlers [SpecLeaf Leaf Object] : List (Handler Leaf) :=
  [.allOf, .anyOf, .not, .any]

/-- The registry as text: its policy, and the short names of the types it has handlers for. -/
def describe (reg : Registry Leaf) : String :=
  let policy := match reg.config.duplicatePolicy with
    | .reject => "Reject"
    | .replace => "Replace"
  let names := reg.types.map fun type => "\"" ++ type.shortName ++ "\""
  "HandlerRegistry \x7b config: RegistryConfig \x7b duplicate_policy: " ++ policy ++
    " \x7d, handlers: [" ++ ", ".intercalate names ++ "] \x7d"

variable [SpecLeaf Leaf Object]

/-- The handler for a specification, if it has all the required capabilities; else the first one
that it lacks is named. -/
def handlerFor (reg : Registry Leaf) (spec : Spec Leaf) (required : List Capability) :
    Except TranslationError (Handler Leaf) :=
  match reg.lookup? spec.type with
  | none => .error { type := spec.type, reason := .noHandler }
  | some handler =>
    match required.find? fun capability => !handler.hasCapability capability with
    | none => .ok handler
    | some missing => .error { type := spec.type, reason := .missingCapability handler.name missing }

/-- The handler for a specification and the way it makes conditions. A handler may claim a
capability that it does not have. -/
def conditionHandlerFor (reg : Registry Leaf) (spec : Spec Leaf) :
    Except TranslationError (Handler Leaf × ConditionMaker Leaf) :=
  match reg.handlerFor spec [.condition] with
  | .error e => .error e
  | .ok handler =>
    match handler.makeCondition? with
    | some make => .ok (handler, make)
    | none => .error { type := spec.type, reason := .missingCapability handler.name .condition }

/-- Makes the condition of a specification whose children have these translations. -/
def makeCondition (reg : Registry Leaf) (spec : Spec Leaf)
    (children : List (Translation Condition)) : Translation Condition :=
  match reg.conditionHandlerFor spec with
  | .error e => .fail e
  | .ok (_, make) => make spec children

end Registry

/-- The registries that contexts can refer to. -/
abbrev Registries (Leaf : Type) := Nat → Registry Leaf

namespace Registries

variable {Leaf Object : Type} [SpecLeaf Leaf Object]

def makeCondition (regs : Registries Leaf) (spec : Spec Leaf)
    (children : List (Translation Condition)) : Translation Condition :=
  fun ctx => (regs ctx.registry).makeCondition spec children ctx

mutual
/-- Translates a specification, each node by the handler for its type. -/
def translate (regs : Registries Leaf) : Spec Leaf → Translation Condition
  | .allOf first rest =>
    regs.makeCondition (.allOf first rest) (regs.translate first :: regs.translateEach rest)
  | .anyOf first rest =>
    regs.makeCondition (.anyOf first rest) (regs.translate first :: regs.translateEach rest)
  | .not child => regs.makeCondition (.not child) [regs.translate child]
  | .any => regs.makeCondition .any []
  | .field criterion => regs.makeCondition (.field criterion) []
  | .leaf criterion => regs.makeCondition (.leaf criterion) []

def translateEach (regs : Registries Leaf) : List (Spec Leaf) → List (Translation Condition)
  | [] => []
  | spec :: rest => regs.translate spec :: regs.translateEach rest
end

theorem translateEach_eq_map (regs : Registries Leaf) (specs : List (Spec Leaf)) :
    regs.translateEach specs = specs.map regs.translate := by
  induction specs with
  | nil => rfl
  | cons spec rest ih => simp [translateEach, ih]

/-- A specification is handed to its handler with the translations of its children. -/
theorem translate_eq (regs : Registries Leaf) (spec : Spec Leaf) :
    regs.translate spec = regs.makeCondition spec (spec.children.map regs.translate) := by
  cases spec <;> simp [translate, Spec.children, translateEach_eq_map]

/-- Narrows the filter of a context by a specification, or leaves aliases and query as they were. -/
def matchSpec (regs : Registries Leaf) (spec : Spec Leaf) : Translation Unit :=
  (regs.translate spec).andWhere

end Registries

namespace Registry

variable {Leaf Object : Type}

/-- This registry, whatever the context refers to: there is no other. -/
def alone (reg : Registry Leaf) : Registries Leaf :=
  fun _ => reg

variable [SpecLeaf Leaf Object]

def translate (reg : Registry Leaf) (spec : Spec Leaf) : Translation Condition :=
  reg.alone.translate spec

def matchSpec (reg : Registry Leaf) (spec : Spec Leaf) : Translation Unit :=
  reg.alone.matchSpec spec

theorem translate_eq (reg : Registry Leaf) (spec : Spec Leaf) :
    reg.translate spec = reg.makeCondition spec (spec.children.map reg.translate) :=
  reg.alone.translate_eq spec

end Registry

end Criteria
