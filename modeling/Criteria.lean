import Criteria.Execution.Executor
import Criteria.Query.Encoding
import Criteria.Translation.Registry
import Criteria.Proofs.Parameters
import Criteria.Proofs.Condition.Evaluation
import Criteria.Proofs.Context.Growth
import Criteria.Proofs.Spec.Tree
import Criteria.Proofs.Translation.Rules
import Criteria.Proofs.Translation.Frame
import Criteria.Proofs.Context.Call
import Criteria.Proofs.Translation.Meaning
import Criteria.Proofs.Translation.Atomicity
import Criteria.Proofs.Condition.Reading
import Criteria.Proofs.Execution.Tuples
import Criteria.Proofs.Store.Rows
import Criteria.Proofs.Execution.Relational
import Criteria.Proofs.Execution.Agreement
import Criteria.Proofs.Translation.Image
import Criteria.Proofs.Translation.Matching
import Criteria.Proofs.Translation.Blindness
import Criteria.Proofs.Condition.Unambiguity
import Criteria.Proofs.Store.Scan
import Criteria.Proofs.Text.Utf8
import Criteria.Proofs.Store.Call
import Criteria.Proofs.Store.Freshness
import Criteria.Proofs.Store.Isolation
import Criteria.Proofs.Json.Quoted
import Criteria.Proofs.Json.Reader
import Criteria.Proofs.Json.Decoder
import Criteria.Proofs.Json.Codec
import Criteria.Proofs.Store.Table
import Criteria.Proofs.Store.Refinement
import Criteria.Proofs.Condition.Codec
import Criteria.Proofs.Query.Codec
import Criteria.Proofs.Query.RoundTrip
import Criteria.Proofs.FirstOfEach
import Criteria.Proofs.Translation.Conjunction
import Criteria.Proofs.Translation.Procedure
import Criteria.Proofs.Context.Uniqueness
import Criteria.Proofs.Context.Stability
import Criteria.Proofs.Translation.Index
import Criteria.Proofs.Translation.Registration
import Criteria.Proofs.Spec.Positions
import Criteria.Proofs.Translation.Refusal
import Criteria.Proofs.Condition.Reach
import Criteria.Proofs.Execution.Stages
import Criteria.Proofs.Execution.Reporting
import Criteria.Proofs.Json.Order
import Criteria.Proofs.Execution.Sorting
import Criteria.Proofs.Execution.Ordering
import Criteria.Proofs.Condition.Rearrangement
import Criteria.Proofs.Execution.RowLimit
import Criteria.Proofs.Json.WholeNumbers
import Criteria.Proofs.Store.Readback
import Criteria.Proofs.Context.Derivation
import Criteria.Proofs.Text.Lowercase
import Criteria.Proofs.Context.Unquoted
