import EntityQuery.Query.Window
import EntityQuery.Value.Basic

/-! What runs queries. An executor hands out execution handles, fetches rows under a handle, and
takes handles back. -/
namespace EntityQuery

abbrev Handle := Nat

/-- Why an executor gives no handle or no rows. -/
inductive ExecutorError where
  | unavailable (reason : String)
  | unknownHandle (handle : Handle)
  | rejected (query reason : String)
  | noResponse (query : String)
  | malformed (query : String)
deriving Repr, DecidableEq

def ExecutorError.message : ExecutorError → String
  | unavailable reason => "executor unavailable: " ++ reason
  | unknownHandle handle => "unknown execution handle " ++ toString handle
  | rejected _ reason => "query rejected: " ++ reason
  | noResponse query => "no result scripted for query: " ++ query
  | malformed query => "malformed query text: " ++ query

/-- Asks for the rows of a query that lie inside a window. -/
structure FetchRequest where
  query : String
  params : Dictionary Value
  window : Window

/-- Each action may change the state `σ` behind the executor, and may fail. -/
structure Executor (σ : Type) where
  acquire : StateM σ (Except ExecutorError Handle)
  fetch : Handle → FetchRequest → StateM σ (Except ExecutorError (List Row))
  release : Handle → StateM σ Unit

/-- Runs a request under a handle of its own. -/
def Executor.fetchOnce {σ : Type} (executor : Executor σ) (request : FetchRequest) :
    StateM σ (Except ExecutorError (List Row)) := do
  match ← executor.acquire with
  | .error e => return .error e
  | .ok handle =>
    let rows ← executor.fetch handle request
    executor.release handle
    return rows

end EntityQuery
