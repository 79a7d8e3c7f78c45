import EntityQuery.Dialect
import EntityQuery.Executor.Basic
import EntityQuery.Lambda.Evaluation

/-! The state that a run changes. -/
namespace EntityQuery

/-- The state behind the executor, and the calls of external functions, last first. -/
structure Session (σ : Type) where
  executor : σ
  calls : List Invocation := []

/-- An action on the executor as an action of the run. -/
def Session.onExecutor {σ α : Type} (action : StateM σ α) : StateM (Session σ) α := fun s =>
  let (a, executor) := action s.executor
  (a, { s with executor })

/-- How a run is carried out: its executor, the dialect in which entities are asked for, and how
many steps a single request may take. -/
structure Engine (σ : Type) where
  executor : Executor σ
  dialect : Dialect
  steps : Nat := Nat.pow 2 62

end EntityQuery
