import EntityQuery.Expr.Basic
import EntityQuery.Value.Json

/-! Expressions as JSON documents. -/
namespace EntityQuery

namespace ExprType

def toJson : ExprType → Json
  | boolean => .string "Boolean"
  | numeric => .string "Numeric"
  | string => .string "String"
  | entity name => .tagged "Entity" (.string name)
  | collection name => .tagged "Collection" (.string name)
  | tuple => .string "Tuple"
  | unknown => .string "Unknown"

def ofJson? (j : Json) : Option ExprType := do
  match ← j.variant? with
  | ("Entity", some j) => j.asString?.map entity
  | ("Collection", some j) => j.asString?.map collection
  | (tag, content) =>
    if !Json.isUnit content then none
    else match tag with
      | "Boolean" => some boolean
      | "Numeric" => some numeric
      | "String" => some string
      | "Tuple" => some tuple
      | "Unknown" => some unknown
      | _ => none

end ExprType

namespace Nesting

mutual

def toJson : Nesting → Json
  | leaf => .string "Leaf"
  | group parts => .tagged "Group" (.array (partsToJson parts))

def partsToJson : List Nesting → List Json
  | [] => []
  | part :: parts => toJson part :: partsToJson parts

end

def readJson : Nat → Json → Option Nesting
  | 0, _ => none
  | fuel + 1, j => do
    match ← j.variant? with
    | ("Leaf", content) => if Json.isUnit content then some leaf else none
    | ("Group", some j) => do some (group (← (← j.asArray?).mapM (readJson fuel)))
    | _ => none

def ofJson? (j : Json) : Option Nesting := readJson j.depth j

end Nesting

/-- Reads the bare name of one of a set of constants. -/
def Json.constant? {α : Type} (table : List (String × α)) (j : Json) : Option α := do
  let (tag, content) ← j.variant?
  if Json.isUnit content then table.lookup tag else none

def Json.constantName {α : Type} [BEq α] (table : List (String × α)) (a : α) : Json :=
  .string (((table.find? fun entry => entry.2 == a).map Prod.fst).getD "")

namespace BinaryOp

def tags : List (String × BinaryOp) :=
  [("Eq", eq), ("Ne", ne), ("Lt", lt), ("Gt", gt), ("Lte", le), ("Gte", ge), ("And", and),
    ("Or", or), ("Plus", add), ("Minus", sub), ("Mul", mul), ("Div", div), ("Mod", mod),
    ("Concat", concat)]

end BinaryOp

namespace UnaryOp

def tags : List (String × UnaryOp) :=
  [("Not", not), ("Minus", neg), ("IsNull", isNull), ("IsNotNull", isNotNull)]

end UnaryOp

namespace Aggregate

def tags : List (String × Aggregate) :=
  [("Count", count), ("Sum", sum), ("Min", min), ("Max", max), ("Avg", avg)]

end Aggregate

namespace ScalarFn

def tags : List (String × ScalarFn) :=
  [("Abs", abs), ("Sqrt", sqrt), ("Upper", upper), ("Lower", lower), ("Trim", trim),
    ("Length", length)]

end ScalarFn

namespace Literal

def toJson : Literal → Json
  | int n => .tagged "Int" (.int n.toInt)
  | float x => .tagged "Float" (.float x)
  | string s => .tagged "String" (.string s)
  | bool b => .tagged "Bool" (.bool b)
  | null => .string "Null"

def ofJson? (j : Json) : Option Literal := do
  match ← j.variant? with
  | ("Int", some j) => j.asInt64?.map int
  | ("Float", some j) => j.asFloat?.map float
  | ("String", some j) => j.asString?.map string
  | ("Bool", some j) => j.asBool?.map bool
  | ("Null", content) => if Json.isUnit content then some null else none
  | _ => none

end Literal

namespace Expr

mutual

def toJson : Expr → Json
  | constant literal => .tagged "Constant" literal.toJson
  | parameter name value =>
    .tagged "Parameter" (.object [("name", .string name), ("value", value.toJson)])
  | source id entity =>
    .tagged "SourceRef" (.object [("source", .int id), ("entity", .string entity)])
  | field base path type =>
    .tagged "FieldAccess" (.object
      [("base", toJson base), ("path", .array (path.map .string)), ("ty", type.toJson)])
  | binary op left right =>
    .tagged "BinaryOp" (.object
      [("left", toJson left), ("op", Json.constantName BinaryOp.tags op), ("right", toJson right)])
  | unary op operand =>
    .tagged "UnaryOp" (.object
      [("op", Json.constantName UnaryOp.tags op), ("expr", toJson operand)])
  | conditional condition whenTrue whenFalse =>
    .tagged "Conditional" (.object
      [("cond", toJson condition), ("then", toJson whenTrue), ("otherwise", toJson whenFalse)])
  | tuple elements nesting =>
    .tagged "Tuple" (.object
      [("elements", .array (allToJson elements)), ("shape", nesting.toJson)])
  | aggregate kind argument distinct =>
    .tagged "Aggregate" (.object
      [("kind", Json.constantName Aggregate.tags kind), ("arg", toJson argument),
        ("distinct", .bool distinct)])
  | apply fn arguments =>
    .tagged "Function" (.object
      [("func", Json.constantName ScalarFn.tags fn), ("args", .array (allToJson arguments))])
  | unsupported reason => .tagged "Unsupported" (.object [("reason", .string reason)])

def allToJson : List Expr → List Json
  | [] => []
  | e :: es => toJson e :: allToJson es

end

/-- Reads what `toJson` writes; each level of nesting takes a unit of fuel. -/
def readJson : Nat → Json → Option Expr
  | 0, _ => none
  | fuel + 1, j => do
    let (tag, content) ← j.variant?
    let content ← content
    match tag with
    | "Constant" => (Literal.ofJson? content).map constant
    | "Parameter" =>
      let field ← content.record? ["name", "value"]
      some (parameter (← (← field "name").asString?) (← Value.readJson fuel (← field "value")))
    | "SourceRef" =>
      let field ← content.record? ["source", "entity"]
      some (source (← (← field "source").asCount?) (← (← field "entity").asString?))
    | "FieldAccess" =>
      let part ← content.record? ["base", "path", "ty"]
      some (field (← readJson fuel (← part "base"))
        (← (← (← part "path").asArray?).mapM Json.asString?) (← ExprType.ofJson? (← part "ty")))
    | "BinaryOp" =>
      let part ← content.record? ["left", "op", "right"]
      some (binary (← Json.constant? BinaryOp.tags (← part "op"))
        (← readJson fuel (← part "left")) (← readJson fuel (← part "right")))
    | "UnaryOp" =>
      let part ← content.record? ["op", "expr"]
      some (unary (← Json.constant? UnaryOp.tags (← part "op")) (← readJson fuel (← part "expr")))
    | "Conditional" =>
      let part ← content.record? ["cond", "then", "otherwise"]
      some (conditional (← readJson fuel (← part "cond")) (← readJson fuel (← part "then"))
        (← readJson fuel (← part "otherwise")))
    | "Tuple" =>
      let part ← content.record? ["elements", "shape"]
      some (tuple (← (← (← part "elements").asArray?).mapM (readJson fuel))
        (← Nesting.readJson fuel (← part "shape")))
    | "Aggregate" =>
      let part ← content.record? ["kind", "arg", "distinct"]
      some (aggregate (← Json.constant? Aggregate.tags (← part "kind"))
        (← readJson fuel (← part "arg")) (← (← part "distinct").asBool?))
    | "Function" =>
      let part ← content.record? ["func", "args"]
      some (apply (← Json.constant? ScalarFn.tags (← part "func"))
        (← (← (← part "args").asArray?).mapM (readJson fuel)))
    | "Unsupported" =>
      let part ← content.record? ["reason"]
      some (unsupported (← (← part "reason").asString?))
    | _ => none

def ofJson? (j : Json) : Option Expr := readJson j.depth j

end Expr
end EntityQuery
