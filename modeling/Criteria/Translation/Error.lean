import Criteria.Spec.Basic

/-! Why a specification cannot be translated. -/

set_option autoImplicit false

namespace Criteria

/-- What a handler may be able to do. -/
inductive Capability where
  | condition
  | named (name : String)
  deriving DecidableEq

def Capability.text : Capability → String
  | .condition => "condition"
  | .named name => name

inductive UnsupportedReason where
  | noHandler
  | missingCapability (handler : String) (capability : Capability)
  | wrongVariant (handler : String) (expected : SpecType)
  | emptyComposite (handler : String)
  deriving DecidableEq

def UnsupportedReason.handler? : UnsupportedReason → Option String
  | .noHandler => none
  | .missingCapability handler _ | .wrongVariant handler _ | .emptyComposite handler => some handler

structure TranslationError where
  type : SpecType
  reason : UnsupportedReason
  /-- The handlers of the composites around the specification, the innermost first. -/
  composites : List String := []
  deriving DecidableEq

namespace TranslationError

/-- The same error, seen from the composite around it. -/
def within (e : TranslationError) (handler : String) : TranslationError :=
  { e with composites := e.composites ++ [handler] }

def reasonText (type : SpecType) : UnsupportedReason → String
  | .noHandler => type.name ++ " specification is not supported: no handler registered."
  | .missingCapability handler capability =>
    type.name ++ " specification is not supported: " ++ handler ++ " lacks the " ++
      capability.text ++ " capability."
  | .wrongVariant handler expected =>
    handler ++ " supports only " ++ expected.name ++ " specifications, but " ++ type.name ++ " given."
  | .emptyComposite handler =>
    handler ++ " cannot translate " ++ type.name ++ " without nested specifications."

def message (e : TranslationError) : String :=
  reasonText e.type e.reason ++
    (if e.composites.isEmpty then "" else " Nested in: " ++ " < ".intercalate e.composites)

end TranslationError

end Criteria
