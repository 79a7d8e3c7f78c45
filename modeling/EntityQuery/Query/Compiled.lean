import EntityQuery.Digest.Sha256
import EntityQuery.Query.Emission
import EntityQuery.Query.Merge

/-! Compiling a model to what an executor needs. -/
namespace EntityQuery

/-- Why a clause or a model has no query text. -/
inductive CompileError where
  | extraction (clause : Clause) (reason : String)
  | unsupported (clause : Clause) (reason : String)
  | parameterConflict (name : String)
  | invalidModel (cause : MergeError)
deriving Repr, DecidableEq

def CompileError.message : CompileError → String
  | extraction clause reason => "Extraction failure in " ++ clause.name ++ ": " ++ reason
  | unsupported clause reason => "Unsupported construct in " ++ clause.name ++ ": " ++ reason
  | parameterConflict name => "Parameter :" ++ name ++ " is bound to two different values"
  | invalidModel cause => "Query model is not translatable: " ++ cause.message

/-- `params` are the values of the parameters in `text`; the window is applied by the executor;
`nesting` rebuilds tuples from rows. -/
structure CompiledQuery where
  text : String
  params : Dictionary Value
  window : Window
  nesting : Nesting
  dialect : Dialect
  fingerprint : String

namespace CompiledQuery

/-- The number of columns of each row. -/
def width (q : CompiledQuery) : Nat := q.nesting.width

/-- What the fingerprint is taken of. -/
def fingerprintJson (text : String) (params : Dictionary Value) (window : Window) : Json :=
  .array [.string text, .object (params.map fun (name, value) => (name, value.toJson)),
    window.toJson]

end CompiledQuery

namespace QueryModel

/-- A name may be bound again, to the same value. -/
def bindParameter (params : Dictionary Value) (p : String × Value) :
    Except CompileError (Dictionary Value) :=
  match params.find? p.1 with
  | some bound => if bound == p.2 then .ok params else .error (.parameterConflict p.1)
  | none => .ok (params.insert p.1 p.2)

def collectParameters (m : QueryModel) : Except CompileError (Dictionary Value) :=
  (m.exprs.flatMap Expr.parameters).foldlM bindParameter []

def compile [Libraries] (m : QueryModel) (dialect : Dialect) : Except CompileError CompiledQuery
    := do
  m.validate.mapError .invalidModel
  let params ← m.collectParameters
  let text := m.text dialect
  let json := CompiledQuery.fingerprintJson text params m.window
  .ok {
    text, params, window := m.window, nesting := m.rowNesting, dialect
    fingerprint := Sha256.hexDigest json.compact }

end QueryModel
end EntityQuery
