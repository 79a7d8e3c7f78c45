import EntityQuery.Value.Operation

/-! Traces: the operations of a lambda in the order in which they were recorded. -/
namespace EntityQuery

/-- A function that the query language does not know; it can only run on values. -/
structure ExternalFunction where
  name : String
  run : List Value → Except EvalError Value

inductive Callee where
  | known (fn : ScalarFn)
  | external (f : ExternalFunction)

/-- Operations name the ones they read by their place in the trace. -/
inductive Op where
  | param (index : Nat)
  | const (value : Value)
  | capture (name : String) (value : Value)
  | field (base : Nat) (name : String)
  | binary (op : BinaryOp) (left right : Nat)
  | unary (op : UnaryOp) (operand : Nat)
  | branch (condition whenTrue whenFalse : Nat)
  | tuple (items : List Nat)
  | element (base : Nat) (index : Nat)
  | call (callee : Callee) (arguments : List Nat)
  | streamFrom (collection : Nat)
  | streamEntity (provider : Nat) (entity : String)

namespace Op

/-- The operations that an operation reads. -/
def inputs : Op → List Nat
  | param _ | const _ | capture _ _ => []
  | field base _ | element base _ => [base]
  | binary _ left right => [left, right]
  | unary _ operand => [operand]
  | branch condition whenTrue whenFalse => [condition, whenTrue, whenFalse]
  | tuple items => items
  | call _ arguments => arguments
  | streamFrom collection => [collection]
  | streamEntity provider _ => [provider]

def external? : Op → Option ExternalFunction
  | call (.external f) _ => some f
  | _ => none

def capture? : Op → Option (String × Value)
  | capture name value => some (name, value)
  | _ => none

end Op

structure Trace where
  arity : Nat
  ops : List Op
  result : Nat

namespace Trace

/-- The named values the lambda closes over. -/
def captures (t : Trace) : List (String × Value) := t.ops.filterMap Op.capture?

/-- External calls with their places, also those whose result is never read. -/
def externalCalls (t : Trace) : List (Nat × ExternalFunction) :=
  t.ops.zipIdx.filterMap fun (op, id) => op.external?.map (id, ·)

/-- Going back from the last operation, an operation that is needed makes its inputs needed. -/
def needed (needs : List Nat) : List (Op × Nat) → List Nat
  | [] => needs
  | (op, id) :: earlier =>
    needed (if needs.contains id then op.inputs ++ needs else needs) earlier

/-- The operations the result depends on. -/
def reachable (t : Trace) : List Nat := needed [t.result] t.ops.zipIdx.reverse

def isReachable (t : Trace) (id : Nat) : Bool := t.reachable.contains id

/-- The external calls that the result does not depend on, in the order of recording. -/
def independentCalls (t : Trace) : List Nat :=
  (t.externalCalls.map Prod.fst).filter fun id => !t.isReachable id

end Trace
end EntityQuery
