import Criteria.Json.Decoder

/-! Limits of the execution of queries. -/

set_option autoImplicit false

namespace Criteria

structure ExecutorConfig where
  /-- An entity with more rows is an error and never a shorter result. -/
  maxRowsPerEntity : Nat := 10000
  maxResultRows : Option Nat := none
  deriving DecidableEq

namespace ExecutorConfig

/-- The greatest limit. Limits are unsigned numbers of 64 bits. -/
def maxLimit : Nat :=
  Nat.pow 2 64 - 1

/-- How many rows of an entity to ask for: one more than allowed, so that none is left out unseen.
Beyond the greatest limit there is no further one. -/
def rowsToLoad (config : ExecutorConfig) : Nat :=
  if config.maxRowsPerEntity < maxLimit then config.maxRowsPerEntity + 1
  else config.maxRowsPerEntity

def limit : Decoder Nat :=
  Decoder.natUpTo maxLimit

def decoder : Decoder ExecutorConfig
  | depth + 1, document => do
    let [maxRows, maxResult] ←
      Decoder.fields ["max_rows_per_entity", "max_result_rows"] 0 document | none
    let maxRows ← Decoder.withDefault 10000 limit depth maxRows
    let maxResult ← Decoder.withDefault none (.orNull limit) depth maxResult
    return ⟨maxRows, maxResult⟩
  | 0, _ => none

def encode (config : ExecutorConfig) : Json :=
  .record [
    ("max_rows_per_entity", .number (.int config.maxRowsPerEntity)),
    ("max_result_rows", match config.maxResultRows with
      | none => .null
      | some n => .number (.int n))]

end ExecutorConfig

end Criteria
