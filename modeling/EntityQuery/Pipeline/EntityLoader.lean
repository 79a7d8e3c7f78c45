import EntityQuery.Pipeline.Assembly
import EntityQuery.Pipeline.Session

/-! Loading all entities of a type for lambdas that run on values. Each type is loaded once. -/
namespace EntityQuery

/-- `failure` is the executor's error behind a load that failed during the present call. -/
structure EntityLoader where
  cache : Dictionary (List Value) := []
  failure : Option ExecutorError := none

namespace EntityLoader

variable [Libraries] {σ : Type} (engine : Engine σ)

def query (dialect : Dialect) (entity : String) : Except QueryError CompiledQuery :=
  ((QueryModel.root entity).compile dialect).mapError .compile

def load (entity : String) : StateM σ (Except QueryError (List Value)) := do
  match query engine.dialect entity with
  | .error e => return .error e
  | .ok q =>
    match ← engine.executor.fetchOnce ⟨q.text, q.params, q.window⟩ with
    | .error e => return .error (.executor e)
    | .ok rows => return rows.mapM q.nesting.assemble

/-- The instances of a type, from the cache if they are there. -/
def entities : EntitySource (σ × EntityLoader) := fun entity (s, loader) =>
  match loader.cache.find? entity with
  | some values => (.ok values, s, loader)
  | none =>
    match load engine entity s with
    | (.ok values, s) =>
      (.ok values, s, { loader with cache := loader.cache.insert entity values })
    | (.error (.executor e), s) =>
      (.error (.entitySource e.message), s, { loader with failure := e })
    | (.error e, s) => (.error (.entitySource e.message), s, loader)

/-- Calls a function; a failure of the executor is reported as such. -/
def call (loader : EntityLoader) (f : ClientFunction) (arguments : List Value) :
    StateM (Session σ) (Except QueryError Value × EntityLoader) := fun session =>
  match f.call (entities engine) arguments session.calls (session.executor, loader) with
  | (.error (.entitySource reason), calls, executor, loader) =>
    let cause := match loader.failure with
      | some e => .executor e
      | none => .evaluation (.entitySource reason)
    ((.error cause, { loader with failure := none }), ⟨executor, calls⟩)
  | (result, calls, executor, loader) =>
    ((result.mapError .evaluation, loader), ⟨executor, calls⟩)

end EntityLoader
end EntityQuery
