import EntityQuery.Lambda.Recording

/-! Running lambdas on values. External calls whose results feed nothing run first, in the order
of recording, as statements before the result would; then the result is computed on demand, so
that only the taken arm of a branch runs, and each operation at most once. -/
namespace EntityQuery

/-- A call of a function that comes with a lambda. -/
structure Invocation where
  name : String
  arguments : List Value

/-- Supplies all instances of an entity type, from a state of its own. -/
abbrev EntitySource (τ : Type) := String → τ → Except EvalError (List Value) × τ

/-- The source for lambdas that stream no entities. -/
def noEntities {τ : Type} : EntitySource τ := fun entity s =>
  (.error (.entitySource ("no provider available to stream " ++ entity)), s)

/-- Values computed so far, the calls made, last first, and the state of the entity source. -/
structure Progress (τ : Type) where
  memo : List (Nat × Value) := []
  calls : List Invocation
  source : τ

abbrev Evaluation (τ α : Type) := ExceptT EvalError (StateM (Progress τ)) α

namespace Evaluation

variable {τ : Type}

def invoke (name : String) (arguments : List Value) (result : Except EvalError Value) :
    Evaluation τ Value := do
  modify fun p => { p with calls := ⟨name, arguments⟩ :: p.calls }
  result

def entities (source : EntitySource τ) (entity : String) : Evaluation τ Value := do
  let p ← get
  let (result, state) := source entity p.source
  set { p with source := state }
  return .list (← result)

/-- What an operation is, given how to compute the ones it reads. -/
def compute (source : EntitySource τ) (arguments : List Value) (value : Nat → Evaluation τ Value) :
    Op → Evaluation τ Value
  | .param index =>
    match arguments[index]? with
    | some v => return v
    | none => throw (.missingArgument index)
  | .const v => return v
  | .capture _ v => return v
  | .field base name => do (← value base).readAttribute name
  | .binary op left right => do
    let a ← value left
    match op, a with
    | .and, .bool false => return .bool false
    | .or, .bool true => return .bool true
    | op, a => Value.binary op a (← value right)
  | .unary op operand => do Value.unary op (← value operand)
  | .branch condition whenTrue whenFalse => do
    match ← value condition with
    | .bool true => value whenTrue
    | .bool false => value whenFalse
    | other => throw (.typeMismatch "branch condition" other.kind)
  | .tuple items => return .tuple (← items.mapM value)
  | .element base index => do
    match ← value base with
    | .tuple items =>
      match items[index]? with
      | some v => return v
      | none => throw (.indexOutOfRange index)
    | other => throw (.typeMismatch ("element " ++ toString index) other.kind)
  | .call callee items => do
    let values ← items.mapM value
    match callee, values with
    | .known fn, v :: _ => fn.applyTo v
    | .known _, [] => throw (.missingArgument 0)
    | .external f, values => invoke f.name values (f.run values)
  | .streamFrom collection => do
    match ← value collection with
    | .list items => return .list items
    | .null => return .list []
    | other => throw (.typeMismatch "stream" other.kind)
  | .streamEntity _ entity => entities source entity

/-- An operation reads only earlier ones, so fuel for one step per operation is enough. -/
def valueOf (source : EntitySource τ) (arguments : List Value) (ops : List Op) :
    Nat → Nat → Evaluation τ Value
  | 0, id => throw (.unscoped id)
  | fuel + 1, id => do
    match (← get).memo.lookup id with
    | some v => return v
    | none =>
      match ops[id]? with
      | none => throw (.unscoped id)
      | some op =>
        let v ← compute source arguments (valueOf source arguments ops fuel) op
        modify fun p => { p with memo := (id, v) :: p.memo }
        return v

/-- Runs the calls that the result does not depend on, then computes the result. -/
def ofTrace (source : EntitySource τ) (t : Trace) (arguments : List Value) :
    Evaluation τ Value := do
  t.independentCalls.forM fun id => discard (valueOf source arguments t.ops t.ops.length id)
  valueOf source arguments t.ops t.ops.length t.result

end Evaluation

/-- A lambda prepared to run on values. -/
inductive ClientFunction where
  | traced (trace : Trace)
  | sealed (run : Value → Except EvalError Value)

namespace ClientFunction

variable {τ : Type}

def evaluation (f : ClientFunction) (source : EntitySource τ) (arguments : List Value) :
    Evaluation τ Value :=
  match f, arguments with
  | traced t, arguments => Evaluation.ofTrace source t arguments
  | sealed run, v :: _ => Evaluation.invoke "opaque" [v] (run v)
  | sealed _, [] => throw (.missingArgument 0)

/-- Runs on the arguments; the calls made are put before the ones given. -/
def call (f : ClientFunction) (source : EntitySource τ) (arguments : List Value)
    (calls : List Invocation) (state : τ) : Except EvalError Value × List Invocation × τ :=
  let (result, p) := (f.evaluation source arguments).run { calls, source := state }
  (result, p.calls, p.source)

end ClientFunction

/-- The form of a lambda that runs on values. -/
def Lambda.client : Lambda → Except ExtractError ClientFunction
  | .sealed run => .ok (.sealed run)
  | f => f.extract.map .traced

end EntityQuery
