/-! Failures of the store. -/

set_option autoImplicit false

namespace Criteria

inductive StorageError where
  | io (detail : String)
  | notFound (what : String)
  | serialization (detail : String)
  | corruptedData (detail : String)
  | keyTooLarge (size max : Nat)
  deriving DecidableEq

def StorageError.message : StorageError → String
  | .io detail => "I/O error: " ++ detail
  | .notFound what => "key not found: " ++ what
  | .serialization detail => "serialization error: " ++ detail
  | .corruptedData detail => "corrupted data: " ++ detail
  | .keyTooLarge size max =>
    "key too large: " ++ toString size ++ " bytes (max: " ++ toString max ++ ")"

end Criteria
