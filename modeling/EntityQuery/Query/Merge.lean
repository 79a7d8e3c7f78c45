import EntityQuery.Expr.Walk
import EntityQuery.Query.Clause
import EntityQuery.Query.Model

/-! Merging clauses into a model. Each operation gives a new model or says why the clause does
not fit one flat query. -/
namespace EntityQuery.QueryModel

def checkSource (m : QueryModel) (id : Nat) : Except MergeError Unit :=
  if id < m.sources.length then .ok () else .error (.danglingSource id)

/-- No node is unsupported and every source exists. -/
def checkExpr (m : QueryModel) (e : Expr) : Except MergeError Unit :=
  match e.firstUnsupported? with
  | some reason => .error (.unsupported reason)
  | none => e.sources.forM m.checkSource

def refuseWindow (m : QueryModel) (clause : Clause) : Except MergeError Unit :=
  if m.window.isUnbounded then .ok () else .error (.afterWindow clause)

def refuseDistinct (m : QueryModel) (clause : Clause) : Except MergeError Unit :=
  if m.distinct then .error (.afterDistinct clause) else .ok ()

/-- Whether an expression stands for itself whatever its type. -/
def isPlain : Expr → Bool
  | .parameter _ _ | .constant _ => true
  | _ => false

/-- Replaces the projection; `e` is an expression over the old element. -/
def select (m : QueryModel) (e : Expr) : Except MergeError QueryModel := do
  m.refuseDistinct .select
  m.checkExpr e
  match e.type with
  | .collection _ | .unknown =>
    if isPlain e then .ok { m with projection := some e }
    else .error (.type .select .singleValued e.type)
  | _ => .ok { m with projection := some e }

/-- Adds a conjunct to the right of the ones there are. -/
def filter (m : QueryModel) (e : Expr) : Except MergeError QueryModel := do
  m.refuseWindow .filter
  m.checkExpr e
  if e.type = .boolean ∨ e.type = .unknown then
    .ok { m with predicate := Expr.conjunction? (m.predicate.toList ++ [e]) }
  else .error (.type .filter .boolean e.type)

/-- Appends a source; the element becomes the pair of the old element and the new source. -/
def join (m : QueryModel) (source : Source) : Except MergeError QueryModel := do
  m.refuseWindow .join
  m.refuseDistinct .join
  match source with
  | .path parent _ _ => m.checkSource parent
  | .root _ => .ok ()
  let joined := Expr.source m.sources.length source.entity
  .ok { m with
    sources := m.sources ++ [source]
    projection := some (Expr.tupleOf [m.element, joined]) }

/-- The newest key becomes the primary one, as with repeated stable sorts. -/
def sort (m : QueryModel) (key : Expr) (direction : Direction) : Except MergeError QueryModel := do
  m.refuseWindow .sort
  m.checkExpr key
  if key.type.isScalar ∨ key.type = .unknown then
    .ok { m with ordering := ⟨key, direction⟩ :: m.ordering }
  else .error (.type .sort .scalar key.type)

def dedupe (m : QueryModel) : Except MergeError QueryModel := do
  m.refuseWindow .distinct
  .ok { m with distinct := true }

def skip (m : QueryModel) (n : UInt64) : QueryModel := { m with window := m.window.skipMore n }

def limit (m : QueryModel) (n : UInt64) : QueryModel := { m with window := m.window.limitTo n }

/-- What an aggregate without an expression runs over. A count of rows counts the first source,
which is never null; a tuple stands for its first column unless it must be distinct. -/
def aggregateArgument (m : QueryModel) (kind : Aggregate) : Except MergeError Expr :=
  if kind = .count ∧ !m.distinct then .ok m.firstSource
  else match m.element with
    | .tuple elements nesting =>
      if m.distinct ∧ 1 < elements.length then .error (.afterDistinct .aggregate)
      else .ok (elements.head?.getD (.tuple elements nesting))
    | e => .ok e

/-- What an aggregate needs its argument to be, when the argument is not that. -/
def unmetRequirement? (kind : Aggregate) (type : ExprType) : Option Requirement :=
  match kind with
  | .count => none
  | .sum | .avg => if type = .numeric ∨ type = .unknown then none else some .numeric
  | .min | .max => if type.isScalar ∨ type = .unknown then none else some .scalar

/-- Replaces the projection by one aggregate. Distinct elements are counted inside it, which is
right only for the element itself. -/
def aggregate (m : QueryModel) (kind : Aggregate) (e : Option Expr) :
    Except MergeError QueryModel := do
  m.refuseWindow .aggregate
  if m.distinct && e.any (· != m.element) then .error (.afterDistinct .aggregate)
  let argument ← match e with
    | some e => .ok e
    | none => m.aggregateArgument kind
  m.checkExpr argument
  match unmetRequirement? kind argument.type with
  | some requirement => .error (.type .aggregate requirement argument.type)
  | none =>
    if argument.type.isPlural then .error (.type .aggregate .singleValued argument.type)
    else .ok { m with
      projection := some (.aggregate kind argument m.distinct)
      ordering := []
      distinct := false }

def withHint (m : QueryModel) (name : String) (value : Value) : Except HintError QueryModel :=
  (m.hints.set name value).map fun hints => { m with hints }

/-- Each path starts at an earlier source. -/
def checkSources : Nat → List Source → Except MergeError Unit
  | _, [] => .ok ()
  | index, .path parent _ _ :: rest =>
    if parent < index then checkSources (index + 1) rest else .error (.danglingSource parent)
  | index, .root _ :: rest => checkSources (index + 1) rest

/-- Every path has an earlier parent, and every expression is supported over the sources. -/
def validate (m : QueryModel) : Except MergeError Unit := do
  checkSources 0 m.sources
  m.exprs.forM m.checkExpr

end EntityQuery.QueryModel
