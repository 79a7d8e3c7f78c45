import EntityQuery.Expr.Tuple
import EntityQuery.Lambda.Trace
import EntityQuery.Metamodel
import EntityQuery.Query.Model

/-! What traces are in the query language. Each operation is carried out on what its inputs
stand for; what has no counterpart in the language becomes unsupported and spoils all that is
built on it. -/
namespace EntityQuery

/-- What a lambda parameter stands for. -/
inductive Binding where
  | element (e : Expr)
  /-- Hands out the entity types of the metamodel. -/
  | provider

/-- An expression, or, for a trace that ends in a stream, a new source. -/
inductive QueryForm where
  | expr (e : Expr)
  | join (source : Source)

/-- Why a result has no query text, if it has none. -/
def QueryForm.unsupported? : QueryForm → Option String
  | expr (.unsupported reason) => some reason
  | _ => none

/-- What an operation stands for. -/
inductive Meaning where
  | expr (e : Expr)
  | provider
  | stream (source : Source)

namespace Meaning

def unsupported (reason : String) : Meaning := expr (.unsupported reason)

def asExpr : Meaning → Expr
  | expr e => e
  | provider => .unsupported "source provider used as a value"
  | stream _ => .unsupported "stream used as a value"

end Meaning

namespace QueryForm

def constant (v : Value) : Expr :=
  match Literal.ofValue? v with
  | some literal => .constant literal
  | none => .unsupported (v.kind.name ++ " constant")

def capture (name : String) (v : Value) : Expr :=
  match Literal.ofValue? v with
  | some _ => .parameter name v
  | none => .unsupported ("captured " ++ v.kind.name ++ " " ++ name)

def field (m : Metamodel) (base : Expr) (name : String) : Expr :=
  if base.isUnsupported then base
  else match base.type with
    | .entity entity =>
      match m.attribute? entity name with
      | some kind => base.navigate name kind.type
      | none => .unsupported (entity ++ " has no attribute " ++ name)
    | other => .unsupported ("read of " ++ name ++ " on " ++ other.toText ++ " value")

/-- With a text on either side, addition concatenates. -/
def resolveOp (op : BinaryOp) (left right : ExprType) : BinaryOp :=
  if op = .add ∧ (left = .string ∨ right = .string) then .concat else op

def isScalarOrUnknown (t : ExprType) : Bool := t.isScalar || t = .unknown

/-- Whether an operator is defined on operands of these types. -/
def admits (op : BinaryOp) (left right : ExprType) : Bool :=
  if op.isLogical then ExprType.boolean.accepts left && ExprType.boolean.accepts right
  else if op.isArithmetic then ExprType.numeric.accepts left && ExprType.numeric.accepts right
  else if op = .concat then isScalarOrUnknown left
  else if op.isEquality then !left.isPlural && !right.isPlural
  else isScalarOrUnknown left && isScalarOrUnknown right

def nullTest (op : BinaryOp) : UnaryOp := if op = .eq then .isNull else .isNotNull

/-- Equality with a null literal becomes a test for null. -/
def binary (op : BinaryOp) (left right : Expr) : Expr :=
  if left.isUnsupported then left
  else if right.isUnsupported then right
  else if op.isEquality && right.isNullLiteral then .unary (nullTest op) left
  else if op.isEquality && left.isNullLiteral then .unary (nullTest op) right
  else
    let op := resolveOp op left.type right.type
    if admits op left.type right.type then .binary op left right
    else .unsupported ("operator " ++ op.symbol ++ " on " ++ left.type.toText ++ " and "
      ++ right.type.toText)

def admitsUnary (op : UnaryOp) (t : ExprType) : Bool :=
  match op with
  | .not => ExprType.boolean.accepts t
  | .neg => ExprType.numeric.accepts t
  | .isNull | .isNotNull => !t.isPlural

def unary (op : UnaryOp) (operand : Expr) : Expr :=
  if operand.isUnsupported then operand
  else if admitsUnary op operand.type then .unary op operand
  else .unsupported (op.name ++ " on " ++ operand.type.toText)

def branch (condition whenTrue whenFalse : Expr) : Expr :=
  match [condition, whenTrue, whenFalse].find? Expr.isUnsupported with
  | some e => e
  | none =>
    if !ExprType.boolean.accepts condition.type then
      .unsupported "branch on non-boolean condition"
    else if whenTrue.type.isPlural || whenFalse.type.isPlural then
      .unsupported "branch producing a tuple"
    else .conditional condition whenTrue whenFalse

def tuple (items : List Expr) : Expr := (items.find? Expr.isUnsupported).getD (Expr.tupleOf items)

def element (base : Expr) (index : Nat) : Expr :=
  match base with
  | .unsupported reason => .unsupported reason
  | .tuple elements nesting =>
    ((Expr.tuple elements nesting).element? index).getD
      (.unsupported ("tuple has no element " ++ toString index))
  | other => .unsupported ("element " ++ toString index ++ " of non-tuple " ++ other.type.toText)

def apply (fn : ScalarFn) (arguments : List Expr) : Expr :=
  match arguments.find? Expr.isUnsupported with
  | some e => e
  | none =>
    if arguments.all fun a => fn.argumentType.accepts a.type then .apply fn arguments
    else .unsupported (fn.name ++ " applied to wrong argument type")

def externalReason (f : ExternalFunction) : String := "call to external function " ++ f.name

/-- A collection can be streamed when it is reached from a source. -/
def streamFrom : Expr → Meaning
  | .field (.source id _) path (.collection entity) => .stream (.path id path entity)
  | .field _ _ (.collection _) => .unsupported "navigation stream not rooted at a source"
  | .unsupported reason => .unsupported reason
  | other => .unsupported ("stream over non-collection " ++ other.type.toText)

def streamEntity (m : Metamodel) (entity : String) : Meaning → Meaning
  | .provider =>
    if m.has entity then .stream (.root entity) else .unsupported ("unknown entity type " ++ entity)
  | _ => .unsupported "stream_of called on a non-provider"

/-- The meaning of an operation, from those of the operations before it. -/
def meaning (m : Metamodel) (bindings : List Binding) (known : List Meaning) : Op → Meaning
  | .param index =>
    match bindings[index]? with
    | some (.element e) => .expr e
    | some .provider => .provider
    | none => .unsupported ("parameter " ++ toString index ++ " is unbound")
  | .const v => .expr (constant v)
  | .capture name v => .expr (capture name v)
  | .field base name => .expr (field m (exprOf base) name)
  | .binary op left right => .expr (binary op (exprOf left) (exprOf right))
  | .unary op operand => .expr (unary op (exprOf operand))
  | .branch c a b => .expr (branch (exprOf c) (exprOf a) (exprOf b))
  | .tuple items => .expr (tuple (items.map exprOf))
  | .element base index => .expr (element (exprOf base) index)
  | .call (.known fn) arguments => .expr (apply fn (arguments.map exprOf))
  | .call (.external f) _ => .unsupported (externalReason f)
  | .streamFrom collection => streamFrom (exprOf collection)
  | .streamEntity provider entity => streamEntity m entity (meaningOf provider)
where
  meaningOf (id : Nat) : Meaning := known[id]?.getD (.unsupported "operation is not recorded")
  exprOf (id : Nat) : Expr := (meaningOf id).asExpr

def meanings (m : Metamodel) (bindings : List Binding) (ops : List Op) : List Meaning :=
  ops.foldl (fun known op => known ++ [meaning m bindings known op]) []

end QueryForm

namespace Trace

/-- The query form with one binding for each parameter. An external call spoils the whole trace,
also where its result is not read. -/
def queryForm (t : Trace) (m : Metamodel) (bindings : List Binding) : QueryForm :=
  match t.externalCalls with
  | (_, f) :: _ => .expr (.unsupported (QueryForm.externalReason f))
  | [] =>
    match (QueryForm.meanings m bindings t.ops)[t.result]? with
    | some (.expr e) => .expr e
    | some (.stream source) => .join source
    | some .provider => .expr (.unsupported "source provider used as a value")
    | none => .expr (.unsupported "empty trace")

end Trace
end EntityQuery
