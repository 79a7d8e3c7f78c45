import EntityQuery.Lambda.Trace

/-! Lambdas and their extraction. The body of a lambda is a term over handles; it is recorded
once, operation by operation, without any row. -/
namespace EntityQuery

/-- A lambda body. `shared i` is the value of the `i`-th preparatory term; `foreign` is a handle
of another extraction; constants and captured values are no handles until they are used. -/
inductive Term where
  | param (index : Nat)
  | shared (index : Nat)
  | const (value : Value)
  | captured (name : String) (value : Value)
  | foreign
  | field (base : Term) (name : String)
  | element (base : Term) (index : Nat)
  | tuple (first : Term) (rest : List Term)
  | branch (condition whenTrue whenFalse : Term)
  | binary (op : BinaryOp) (left right : Term)
  | unary (op : UnaryOp) (operand : Term)
  | apply (fn : ScalarFn) (argument : Term)
  | call (f : ExternalFunction) (first : Term) (rest : List Term)
  | stream (collection : Term)
  | streamOf (provider : Term) (entity : String)

/-- A `traced` lambda has a recorded form. A `sealed` one has none: it takes one value. -/
inductive Lambda where
  | traced (arity : Nat) (preparation : List Term) (body : Term)
  | sealed (run : Value → Except EvalError Value)

inductive ExtractError where
  | sealed
  | foreignHandle
  | arity (expected found : Nat)
deriving Repr, DecidableEq

def ExtractError.message : ExtractError → String
  | sealed => "opaque lambda has no analyzable body"
  | foreignHandle => "lambda uses a handle from another lambda"
  | arity expected found =>
    "lambda takes " ++ toString found ++ " argument(s), clause supplies " ++ toString expected

/-- What a term stands for while a body is recorded. -/
inductive Operand where
  | handle (id : Nat)
  | foreign
  | const (value : Value)
  | captured (name : String) (value : Value)

structure Recording where
  ops : List Op := []
  /-- Whether a foreign handle was used as an operand. -/
  leaked : Bool := false

abbrev Recorder (α : Type) := StateM Recording α

namespace Recorder

def push (op : Op) : Recorder Nat := fun r => (r.ops.length, { r with ops := r.ops ++ [op] })

def record (op : Op) : Recorder Operand := return .handle (← push op)

/-- The operation that produces an operand. A foreign handle leaves a null in its place. -/
def lift : Operand → Recorder Nat
  | .handle id => return id
  | .foreign => do
    modify ({ · with leaked := true })
    push (.const .null)
  | .const value => push (.const value)
  | .captured name value => push (.capture name value)

/-- Operations on a foreign handle belong to the other extraction. -/
def onHandle (base : Operand) (f : Nat → Recorder Operand) : Recorder Operand :=
  match base with
  | .foreign => return .foreign
  | own => do f (← lift own)

end Recorder

/-- What a term may refer to. -/
structure Scope where
  arity : Nat
  shared : List Operand

/-- A function known under its name is called as such when it gets one argument. -/
def calleeFor (f : ExternalFunction) (rest : List Operand) : Callee :=
  match ScalarFn.ofName? f.name, rest with
  | some fn, [] => .known fn
  | _, _ => .external f

namespace Term

open Recorder

mutual

/-- Operands are recorded from left to right, then those that are no handles are lifted from left
to right, and then the operation follows. -/
def record (scope : Scope) : Term → Recorder Operand
  | param index => return if index < scope.arity then .handle index else .const .null
  | shared index => return scope.shared[index]?.getD (.const .null)
  | const value => return .const value
  | captured name value => return .captured name value
  | foreign => return .foreign
  | field base name => do
    onHandle (← record scope base) fun b => Recorder.record (.field b name)
  | element base index => do
    onHandle (← record scope base) fun b => Recorder.record (.element b index)
  | tuple first rest => do
    let first ← record scope first
    let rest ← recordAll scope rest
    onHandle first fun a => do Recorder.record (.tuple (a :: (← rest.mapM lift)))
  | branch condition whenTrue whenFalse => do
    let c ← record scope condition
    let a ← record scope whenTrue
    let b ← record scope whenFalse
    onHandle c fun c => do
      let a ← lift a
      let b ← lift b
      Recorder.record (.branch c a b)
  | binary op left right => do
    let a ← record scope left
    let b ← record scope right
    onHandle a fun a => do Recorder.record (.binary op a (← lift b))
  | unary op operand => do
    onHandle (← record scope operand) fun a => Recorder.record (.unary op a)
  | apply fn argument => do
    onHandle (← record scope argument) fun a => Recorder.record (.call (.known fn) [a])
  | call f first rest => do
    let first ← record scope first
    let rest ← recordAll scope rest
    onHandle first fun a => do
      Recorder.record (.call (calleeFor f rest) (a :: (← rest.mapM lift)))
  | stream collection => do
    onHandle (← record scope collection) fun a => Recorder.record (.streamFrom a)
  | streamOf provider entity => do
    onHandle (← record scope provider) fun a => Recorder.record (.streamEntity a entity)

def recordAll (scope : Scope) : List Term → Recorder (List Operand)
  | [] => return []
  | t :: ts => do
    let first ← record scope t
    let rest ← recordAll scope ts
    return first :: rest

end

end Term

namespace Lambda

open Recorder

def arity : Lambda → Nat
  | traced arity _ _ => arity
  | sealed _ => 1

def isSealed : Lambda → Bool
  | sealed _ => true
  | _ => false

/-- A short account for messages. -/
def summary (f : Lambda) : String :=
  "Lambda \x7b arity: " ++ toString f.arity ++ ", kind: "
    ++ Text.quoted (if f.isSealed then "opaque" else "traced") ++ " \x7d"

/-- Each preparatory term may refer to the ones before it. -/
def recordShared (arity : Nat) : List Operand → List Term → Recorder (List Operand)
  | shared, [] => return shared
  | shared, t :: ts => do
    let operand ← t.record ⟨arity, shared⟩
    recordShared arity (shared ++ [operand]) ts

/-- Records the parameters, the preparatory terms and the body, and lifts what the body is. -/
def recordBody (arity : Nat) (preparation : List Term) (body : Term) : Recorder Nat := do
  (List.range arity).forM fun index => discard (push (.param index))
  let shared ← recordShared arity [] preparation
  lift (← body.record ⟨arity, shared⟩)

def extract : Lambda → Except ExtractError Trace
  | sealed _ => .error .sealed
  | traced arity preparation body =>
    let (result, recording) := (recordBody arity preparation body).run {}
    if recording.leaked then .error .foreignHandle else .ok ⟨arity, recording.ops, result⟩

def extractWithArity (f : Lambda) (expected : Nat) : Except ExtractError Trace :=
  if f.arity = expected then f.extract else .error (.arity expected f.arity)

end Lambda
end EntityQuery
