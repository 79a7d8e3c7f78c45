import EntityQuery.Pipeline.Basic
import EntityQuery.Pipeline.Feed
import EntityQuery.Value.Aggregation

/-! Running pipelines. -/
namespace EntityQuery.Pipeline

variable [Libraries] {σ : Type}

/-- The engine that runs a pipeline on an executor. -/
def engine (p : Pipeline) (executor : Executor σ) : Engine σ := { executor, dialect := p.dialect }

/-- Takes a handle for the query. Rows are fetched as the feed is advanced. -/
def feed (p : Pipeline) (executor : Executor σ) : StateM (Session σ) (Except QueryError Feed) := do
  match p.compile with
  | .error e => return .error e
  | .ok query =>
    match ← Session.onExecutor (Cursor.start executor query p.model.hints.pageSize) with
    | .error e => return .error (.executor e)
    | .ok cursor => return .ok (Feed.ofSteps p.steps (.rows cursor query.nesting))

/-- Runs the query and reads every element. -/
def collectAs {α : Type} (p : Pipeline) (executor : Executor σ) (read : Reader α) :
    StateM (Session σ) (Except QueryError (List α)) := do
  match ← p.feed executor with
  | .error e => return .error e
  | .ok feed => feed.collect (p.engine executor) fun v => (read v).mapError .conversion

def toList (p : Pipeline) (executor : Executor σ) :
    StateM (Session σ) (Except QueryError (List Value)) :=
  p.collectAs executor Reader.value

/-- The value of a list of one. -/
def only {α : Type} : List α → Except QueryError α
  | [a] => .ok a
  | as => .error (.notSingleValue as.length)

/-- The only element. -/
def onlyValue (p : Pipeline) (executor : Executor σ) :
    StateM (Session σ) (Except QueryError Value) := do
  return (← p.toList executor).bind only

/-- The model of an aggregate over the elements, or over what `f` gives for them. -/
def aggregateModel (p : Pipeline) (kind : Aggregate) (f : Option Lambda) :
    Except CompileError QueryModel :=
  match f with
  | none => (p.model.aggregate kind none).mapError fun e => .unsupported .aggregate e.message
  | some f => p.mergeLambda .aggregate f fun t => do
    p.model.aggregate kind (some (← expression .aggregate t))

/-- The only column of a row. -/
def onlyColumn : Row → Except QueryError Value
  | [v] => .ok v
  | row => .error (.rowShape 1 row.length)

/-- Runs a query whose result is one value. -/
def fetchSingle (p : Pipeline) (executor : Executor σ) (model : QueryModel) :
    StateM (Session σ) (Except QueryError Value) := do
  match model.compile p.dialect with
  | .error e => return .error (.compile e)
  | .ok q =>
    match ← Session.onExecutor (executor.fetchOnce ⟨q.text, q.params, q.window⟩) with
    | .error e => return .error (.executor e)
    | .ok rows => return (only rows).bind onlyColumn

/-- What a function gives for each value, up to the first failure. -/
def mapValues (engine : Engine σ) (f : ClientFunction) :
    EntityLoader → List Value → StateM (Session σ) (Except QueryError (List Value))
  | _, [] => return .ok []
  | loader, v :: vs => do
    match ← loader.call engine f [v] with
    | (.error e, _) => return .error e
    | (.ok w, loader) => return (← mapValues engine f loader vs).map (w :: ·)

/-- Collects the elements and folds them on the client. -/
def foldElements (p : Pipeline) (executor : Executor σ) (kind : Aggregate) (f : Option Lambda) :
    StateM (Session σ) (Except QueryError Value) := do
  match ← p.toList executor with
  | .error e => return .error e
  | .ok elements =>
    let inputs ← match f with
      | none => pure (.ok elements)
      | some f => match f.client with
        | .error e => pure (.error (notExtracted .aggregate e))
        | .ok run => mapValues (p.engine executor) run {} elements
    return inputs.bind fun values => (kind.fold values).mapError .evaluation

/-- Aggregates in the query if that merges, and otherwise on the client if the pipeline is not
strict. -/
def aggregate (p : Pipeline) (executor : Executor σ) (kind : Aggregate) (f : Option Lambda) :
    StateM (Session σ) (Except QueryError Value) := do
  if let some e := p.failure then return .error e
  if p.runsClientSide then p.foldElements executor kind f
  else match p.aggregateModel kind f with
    | .ok model => p.fetchSingle executor model
    | .error e =>
      let mayRun := f.all fun f => (runnable? f e).isSome
      if p.model.hints.strict || !mayRun then return .error (.compile e)
      else p.foldElements executor kind f

/-- The number of elements. -/
def count (p : Pipeline) (executor : Executor σ) :
    StateM (Session σ) (Except QueryError Int64) := do
  return (← p.aggregate executor .count none).bind fun v => (Reader.int v).mapError .conversion

end EntityQuery.Pipeline
