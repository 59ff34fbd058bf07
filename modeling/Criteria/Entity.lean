/-! Entity types: the names under which rows are stored and queried. -/

set_option autoImplicit false

namespace Criteria

structure EntityType where
  name : String
  deriving DecidableEq

namespace EntityType

def isSeparator (c : Char) : Bool :=
  c == ':' || c == '\\' || c == '.'

/-- The last non-empty segment of the name, or all of it when there is none. -/
def shortName (entity : EntityType) : String :=
  let segment := (entity.name.toList.reverse.dropWhile isSeparator).takeWhile (!isSeparator ·)
  if segment.isEmpty then entity.name else String.ofList segment.reverse

end EntityType

end Criteria
