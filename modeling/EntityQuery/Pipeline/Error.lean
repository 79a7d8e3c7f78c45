import EntityQuery.Executor.Basic
import EntityQuery.Query.Compiled
import EntityQuery.Value.Operation
import EntityQuery.Value.Reading

/-! Why a pipeline gives no result. -/
namespace EntityQuery

/-- `outOfSteps` stands for a run that was cut off; it is no fault of the query. -/
inductive QueryError where
  | compile (cause : CompileError)
  | hint (cause : HintError)
  | executor (cause : ExecutorError)
  | evaluation (cause : EvalError)
  | unknownEntity (entity : String)
  | rowShape (expected found : Nat)
  | notSingleValue (found : Nat)
  | conversion (cause : ConversionError)
  | outOfSteps

def QueryError.message : QueryError → String
  | compile cause => "Translation failed: " ++ cause.message
  | hint cause => cause.message
  | executor cause => cause.message
  | evaluation cause => "Fallback evaluation failed: " ++ cause.message
  | unknownEntity entity => "Unknown entity type: " ++ entity
  | rowShape expected found =>
    "Row has " ++ toString found ++ " columns, expected " ++ toString expected
  | notSingleValue found => "Expected exactly one value, found " ++ toString found
  | conversion cause => "Result conversion failed: " ++ cause.message
  | outOfSteps => "Ran out of steps"

end EntityQuery
