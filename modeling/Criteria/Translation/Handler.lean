import Criteria.Context
import Criteria.Translation.Error

/-!
Handlers: how specifications of one type become conditions.

A translation reads and extends a context, and keeps what it did to the context
even when it fails. A handler is given its specification and the translations of
the specifications nested in it, in order; it decides whether to run them, and it
may change the context as it likes, the registry that it refers to included.
-/

set_option autoImplicit false

namespace Criteria

abbrev Translation (α : Type) := ExceptT TranslationError (StateM Context) α

namespace Translation

variable {α : Type}

/-- A step that always succeeds. -/
def ofStep (step : Context → α × Context) : Translation α :=
  fun ctx => let (value, ctx) := step ctx; (.ok value, ctx)

def fail (e : TranslationError) : Translation α :=
  fun ctx => (.error e, ctx)

/-- Errors of the translation are seen from a composite around it. -/
def within (handler : String) (t : Translation α) : Translation α :=
  fun ctx =>
    match t ctx with
    | (.ok value, ctx) => (.ok value, ctx)
    | (.error e, ctx) => (.error (e.within handler), ctx)

/-- Narrows the filter by the condition of a translation. If the translation fails, the aliases and
the query are put back to what they were before, but not the registry. -/
def andWhere (t : Translation Condition) : Translation Unit :=
  fun ctx =>
    match t ctx with
    | (.ok condition, after) => (.ok (), after.andWhere condition)
    | (.error e, after) => (.error e, { after with aliases := ctx.aliases, query := ctx.query })

end Translation

/-- Makes the condition of a specification, given the translations of its children. -/
abbrev ConditionMaker (Leaf : Type) :=
  Spec Leaf → List (Translation Condition) → Translation Condition

structure Handler (Leaf : Type) where
  name : String
  handles : SpecType
  makeCondition? : Option (ConditionMaker Leaf) := none
  declared : List Capability := []
  hasCapability : Capability → Bool := fun
    | .condition => makeCondition?.isSome
    | capability => declared.contains capability

namespace Handler

variable {Leaf Object : Type} [SpecLeaf Leaf Object]

def wrongVariant (name : String) (expected : SpecType) (spec : Spec Leaf) :
    Translation Condition :=
  .fail { type := spec.type, reason := .wrongVariant name expected }

/-- The conditions of all children, in order. A composite without any has no translation. -/
def translateChildren (name : String) (spec : Spec Leaf) :
    List (Translation Condition) → Translation (List Condition)
  | [] => .fail { type := spec.type, reason := .emptyComposite name }
  | children => children.mapM (Translation.within name)

def allOf : Handler Leaf where
  name := "AllOfHandler"
  handles := .allOf
  makeCondition? := some fun spec children =>
    match spec with
    | .allOf .. => return .all (← translateChildren "AllOfHandler" spec children)
    | _ => wrongVariant "AllOfHandler" .allOf spec

def anyOf : Handler Leaf where
  name := "AnyOfHandler"
  handles := .anyOf
  makeCondition? := some fun spec children =>
    match spec with
    | .anyOf .. => return .any (← translateChildren "AnyOfHandler" spec children)
    | _ => wrongVariant "AnyOfHandler" .anyOf spec

def not : Handler Leaf where
  name := "NotHandler"
  handles := .not
  makeCondition? := some fun spec children =>
    match spec, children with
    | .not _, child :: _ => return .not (← child)
    | .not _, [] => .fail { type := spec.type, reason := .emptyComposite "NotHandler" }
    | _, _ => wrongVariant "NotHandler" .not spec

def any : Handler Leaf where
  name := "AnyHandler"
  handles := .any
  makeCondition? := some fun spec _ =>
    match spec with
    | .any => return .always
    | _ => wrongVariant "AnyHandler" .any spec

def fieldCompare : Handler Leaf where
  name := "FieldCompareHandler"
  handles := .field
  makeCondition? := some fun spec _ =>
    match spec with
    | .field c => do
      let field ← Translation.ofStep (Context.fieldOf · c.entity c.field)
      let parameter ← Translation.ofStep (Context.bindParameter · c.field c.value)
      return .compare (.field field) c.op (.parameter parameter)
    | _ => wrongVariant "FieldCompareHandler" .field spec

end Handler

end Criteria
