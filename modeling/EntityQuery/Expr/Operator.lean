import EntityQuery.Expr.Type

/-! Operators, aggregates and scalar functions of the query language. -/
namespace EntityQuery

inductive BinaryOp where
  | eq
  | ne
  | lt
  | gt
  | le
  | ge
  | and
  | or
  | add
  | sub
  | mul
  | div
  | mod
  | concat
deriving Repr, DecidableEq

namespace BinaryOp

/-- Binding strength; a higher one binds tighter. -/
def precedence : BinaryOp → Nat
  | or => 1
  | and => 2
  | eq | ne | lt | gt | le | ge => 4
  | add | sub | concat => 5
  | mul | div | mod => 6

def isComparison : BinaryOp → Bool
  | eq | ne | lt | gt | le | ge => true
  | _ => false

def isLogical : BinaryOp → Bool
  | and | or => true
  | _ => false

def isArithmetic : BinaryOp → Bool
  | add | sub | mul | div | mod => true
  | _ => false

def isEquality : BinaryOp → Bool
  | eq | ne => true
  | _ => false

/-- The symbol that messages use. -/
def symbol : BinaryOp → String
  | eq => "=="
  | ne => "!="
  | lt => "<"
  | gt => ">"
  | le => "<="
  | ge => ">="
  | and => "&&"
  | or => "||"
  | add => "+"
  | sub => "-"
  | mul => "*"
  | div => "/"
  | mod => "%"
  | concat => "concat"

def resultType (op : BinaryOp) : ExprType :=
  if op.isComparison || op.isLogical then .boolean
  else if op = concat then .string
  else .numeric

end BinaryOp

inductive UnaryOp where
  | not
  | neg
  | isNull
  | isNotNull
deriving Repr, DecidableEq

namespace UnaryOp

def name : UnaryOp → String
  | not => "Not"
  | neg => "Minus"
  | isNull => "IsNull"
  | isNotNull => "IsNotNull"

def resultType : UnaryOp → ExprType
  | neg => .numeric
  | _ => .boolean

end UnaryOp

inductive Aggregate where
  | count
  | sum
  | min
  | max
  | avg
deriving Repr, DecidableEq

namespace Aggregate

def name : Aggregate → String
  | count => "COUNT"
  | sum => "SUM"
  | min => "MIN"
  | max => "MAX"
  | avg => "AVG"

/-- The name that messages use. -/
def label : Aggregate → String
  | count => "count"
  | sum => "sum"
  | min => "min"
  | max => "max"
  | avg => "avg"

end Aggregate

/-- Functions of one argument that the query language has. -/
inductive ScalarFn where
  | abs
  | sqrt
  | upper
  | lower
  | trim
  | length
deriving Repr, DecidableEq

namespace ScalarFn

def name : ScalarFn → String
  | abs => "ABS"
  | sqrt => "SQRT"
  | upper => "UPPER"
  | lower => "LOWER"
  | trim => "TRIM"
  | length => "LENGTH"

def argumentType : ScalarFn → ExprType
  | abs | sqrt => .numeric
  | upper | lower | trim | length => .string

def resultType : ScalarFn → ExprType
  | abs | sqrt | length => .numeric
  | upper | lower | trim => .string

/-- Functions are also known by the names they have in other places. -/
def ofName? : String → Option ScalarFn
  | "abs" | "Math.abs" => some abs
  | "sqrt" | "Math.sqrt" => some sqrt
  | "upper" | "toUpperCase" | "to_uppercase" => some upper
  | "lower" | "toLowerCase" | "to_lowercase" => some lower
  | "trim" => some trim
  | "length" | "len" => some length
  | _ => none

end ScalarFn
end EntityQuery
