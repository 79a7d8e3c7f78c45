import EntityQuery.Lambda.Recording
import EntityQuery.Pipeline.Step
import EntityQuery.QueryForm

/-! Pipelines: lazy queries built clause by clause. A clause is merged into the query model if its
lambda has a query form that fits. If not, it either fails the pipeline, which is the strict way,
or becomes a step on the client; from then on every clause does. -/
namespace EntityQuery

/-- `steps` run on the client after the query of `model`; `fallbacks` tell why the first of them
was not merged; `failure` is the first one met while building. -/
structure Pipeline where
  metamodel : Metamodel
  dialect : Dialect
  model : QueryModel
  steps : List Step := []
  fallbacks : List CompileError := []
  failure : Option QueryError := none

namespace Pipeline

/-- Whether clauses already run on the client. -/
def runsClientSide (p : Pipeline) : Bool := !p.steps.isEmpty

/-- Records a failure; the first one stays. -/
def fail (p : Pipeline) (e : QueryError) : Pipeline :=
  { p with failure := some (p.failure.getD e) }

def addStep (p : Pipeline) (step : Step) : Pipeline := { p with steps := p.steps ++ [step] }

/-- A join may take the provider of entity types as a second argument. -/
def expectedArity (clause : Clause) (f : Lambda) : Nat :=
  if clause = .join ∧ f.arity = 2 then 2 else 1

def bindings (p : Pipeline) (arity : Nat) : List Binding :=
  .element p.model.element :: (if arity = 2 then [.provider] else [])

/-- The query form of a lambda over the current element. -/
def queryForm (p : Pipeline) (clause : Clause) (f : Lambda) :
    Except CompileError QueryForm := do
  let arity := expectedArity clause f
  let trace ← (f.extractWithArity arity).mapError fun e => .extraction clause e.message
  let form := trace.queryForm p.metamodel (p.bindings arity)
  match form.unsupported? with
  | some reason => .error (.unsupported clause reason)
  | none => .ok form

def isExtraction : CompileError → Bool
  | .extraction _ _ => true
  | _ => false

/-- The form of a lambda that runs on the client although it did not merge. What could not be
recorded must not run, unless it is sealed. -/
def runnable? (f : Lambda) (e : CompileError) : Option ClientFunction :=
  if isExtraction e && !f.isSealed then none else f.client.toOption

/-- What becomes of a clause that did not merge. -/
def fallBack (p : Pipeline) (e : CompileError) (step : Option Step) : Pipeline :=
  match step with
  | some step =>
    if p.model.hints.strict then p.fail (.compile e)
    else { p.addStep step with fallbacks := p.fallbacks ++ [e] }
  | none => p.fail (.compile e)

def notExtracted (clause : Clause) (e : ExtractError) : QueryError :=
  .compile (.extraction clause e.message)

/-- Merges the query form of a lambda. -/
def mergeLambda (p : Pipeline) (clause : Clause) (f : Lambda)
    (merge : QueryForm → Except MergeError QueryModel) : Except CompileError QueryModel := do
  let form ← p.queryForm clause f
  (merge form).mapError fun e => .unsupported clause e.message

/-- Adds a clause with a lambda. -/
def addLambda (p : Pipeline) (clause : Clause) (f : Lambda)
    (merge : QueryForm → Except MergeError QueryModel) (step : ClientFunction → Step) :
    Pipeline :=
  if p.failure.isSome then p
  else if p.runsClientSide then
    match f.client with
    | .ok run => p.addStep (step run)
    | .error e => p.fail (notExtracted clause e)
  else match p.mergeLambda clause f merge with
    | .ok model => { p with model }
    | .error e => p.fallBack e ((runnable? f e).map step)

/-- Adds a clause without a lambda. -/
def addPlain (p : Pipeline) (clause : Clause) (merged : Except MergeError QueryModel)
    (step : Step) : Pipeline :=
  if p.failure.isSome then p
  else if p.runsClientSide then p.addStep step
  else match merged with
    | .ok model => { p with model }
    | .error e => p.fallBack (.unsupported clause e.message) (some step)

/-- The expression that a clause needs. -/
def expression (clause : Clause) : QueryForm → Except MergeError Expr
  | .expr e => .ok e
  | .join _ => .error (.unsupported (clause.name ++ " lambda returns a stream; use join"))

def source : QueryForm → Except MergeError Source
  | .join source => .ok source
  | .expr _ => .error (.unsupported "join lambda must return a stream")

/-- Replaces each element by what `f` gives. -/
def select (p : Pipeline) (f : Lambda) : Pipeline :=
  p.addLambda .select f (fun t => do p.model.select (← expression .select t)) .map

/-- Keeps the elements for which `f` holds. -/
def filter (p : Pipeline) (f : Lambda) : Pipeline :=
  p.addLambda .filter f (fun t => do p.model.filter (← expression .filter t)) .filter

/-- Pairs each element with every item of the stream that `f` gives. -/
def join (p : Pipeline) (f : Lambda) : Pipeline :=
  p.addLambda .join f (fun t => do p.model.join (← source t)) .flatMap

/-- Sorts by `f`; a later sort goes before the earlier ones. -/
def sort (p : Pipeline) (f : Lambda) (direction : Direction) : Pipeline :=
  p.addLambda .sort f (fun t => do p.model.sort (← expression .sort t) direction)
    (.sort · direction)

/-- Drops elements that came before. -/
def distinct (p : Pipeline) : Pipeline := p.addPlain .distinct p.model.dedupe .distinct

def skip (p : Pipeline) (n : UInt64) : Pipeline :=
  p.addPlain .window (.ok (p.model.skip n)) (.skip n)

def limit (p : Pipeline) (n : UInt64) : Pipeline :=
  p.addPlain .window (.ok (p.model.limit n)) (.limit n)

/-- Sets a hint. A pipeline that runs on the client in part cannot become strict again. -/
def setHint (p : Pipeline) (name : String) (value : Value) : Except HintError Pipeline :=
  if name = Hints.strictName ∧ value.asBool? = some true ∧ p.runsClientSide then
    .error ⟨name, .runsClientSide⟩
  else (p.model.withHint name value).map fun model => { p with model }

/-- Compiles the part that was merged. -/
def compile [Libraries] (p : Pipeline) : Except QueryError CompiledQuery :=
  match p.failure with
  | some e => .error e
  | none => (p.model.compile p.dialect).mapError .compile

def text [Libraries] (p : Pipeline) : Except QueryError String := p.compile.map CompiledQuery.text

end Pipeline

/-- Opens pipelines over the entity types of a metamodel. -/
structure Provider where
  metamodel : Metamodel
  dialect : Dialect := .jpql
  hints : Hints := {}

/-- All instances of an entity type. That the type is unknown shows when the pipeline is run. -/
def Provider.all (provider : Provider) (entity : String) : Pipeline :=
  let p : Pipeline := {
    metamodel := provider.metamodel, dialect := provider.dialect
    model := { QueryModel.root entity with hints := provider.hints } }
  if provider.metamodel.has entity then p else p.fail (.unknownEntity entity)

end EntityQuery
