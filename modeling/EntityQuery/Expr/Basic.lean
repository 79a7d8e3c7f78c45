import EntityQuery.Expr.Operator
import EntityQuery.Value.Basic
import EntityQuery.Number.Binary64

/-! Query expressions and their types. -/
namespace EntityQuery

/-- Values that can be written in query text. -/
inductive Literal where
  | int (n : Int64)
  | float (x : Float)
  | string (s : String)
  | bool (b : Bool)
  | null

namespace Literal

/-- Scalars are literals; entities, lists, tuples and floats that are not finite are none. -/
def ofValue? : Value → Option Literal
  | .null => some null
  | .bool b => some (bool b)
  | .int n => some (int n)
  | .float x => if Number.isFinite x then some (float x) else none
  | .string s => some (string s)
  | .entity _ _ | .list _ | .tuple _ => none

def type : Literal → ExprType
  | int _ | float _ => .numeric
  | string _ => .string
  | bool _ => .boolean
  | null => .unknown

def same : Literal → Literal → Bool
  | int a, int b => a == b
  | float a, float b => a == b
  | string a, string b => a == b
  | bool a, bool b => a == b
  | null, null => true
  | _, _ => false

instance : BEq Literal := ⟨same⟩

end Literal

/-- Sources are numbered by their place in the FROM clause. A `field` reads a path of attributes;
a `tuple` holds its leaf columns and their nesting; a `parameter` carries a captured value. -/
inductive Expr where
  | constant (literal : Literal)
  | parameter (name : String) (value : Value)
  | source (id : Nat) (entity : String)
  | field (base : Expr) (path : List String) (type : ExprType)
  | binary (op : BinaryOp) (left right : Expr)
  | unary (op : UnaryOp) (operand : Expr)
  | conditional (condition whenTrue whenFalse : Expr)
  | tuple (elements : List Expr) (nesting : Nesting)
  | aggregate (kind : Aggregate) (argument : Expr) (distinct : Bool)
  | apply (fn : ScalarFn) (arguments : List Expr)
  | unsupported (reason : String)
deriving Inhabited

namespace Expr

/-- A parameter has the type of its value as a literal. -/
def type : Expr → ExprType
  | constant literal => literal.type
  | parameter _ value => ((Literal.ofValue? value).map Literal.type).getD .unknown
  | source _ entity => .entity entity
  | field _ _ type => type
  | binary op _ _ => op.resultType
  | unary op _ => op.resultType
  | conditional _ whenTrue whenFalse =>
    match whenTrue.type with
    | .unknown => whenFalse.type
    | known => known
  | tuple _ _ => .tuple
  | aggregate kind argument _ =>
    match kind with
    | .count | .sum | .avg => .numeric
    | .min | .max => argument.type
  | apply fn _ => fn.resultType
  | unsupported _ => .unknown

/-- Literals and parameters never need parentheses. -/
def isLeaf : Expr → Bool
  | constant _ | parameter _ _ => true
  | _ => false

def isUnsupported : Expr → Bool
  | unsupported _ => true
  | _ => false

def isNullLiteral : Expr → Bool
  | constant .null => true
  | _ => false

mutual

def same : Expr → Expr → Bool
  | constant a, constant b => a == b
  | parameter m v, parameter n w => m == n && v == w
  | source i a, source j b => i == j && a == b
  | field a p t, field b q u => same a b && p == q && t == u
  | binary o a b, binary p c d => o == p && same a c && same b d
  | unary o a, unary p b => o == p && same a b
  | conditional a b c, conditional d e f => same a d && same b e && same c f
  | tuple as n, tuple bs m => sameAll as bs && n == m
  | aggregate k a d, aggregate l b e => k == l && same a b && d == e
  | apply f as, apply g bs => f == g && sameAll as bs
  | unsupported r, unsupported s => r == s
  | _, _ => false

def sameAll : List Expr → List Expr → Bool
  | [], [] => true
  | a :: as, b :: bs => same a b && sameAll as bs
  | _, _ => false

end

instance : BEq Expr := ⟨same⟩

/-- Conjunction of all predicates, nested to the left; nothing when there are none. -/
def conjunction? : List Expr → Option Expr
  | [] => none
  | first :: rest => some (rest.foldl (binary .and) first)

end Expr
end EntityQuery
