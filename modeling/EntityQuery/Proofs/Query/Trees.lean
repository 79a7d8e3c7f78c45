import EntityQuery.Proofs.Query.Grammar
import EntityQuery.Query.Emission
import Mathlib.Logic.Basic

/-! The trees that query text is meant to have. As a condition an expression is taken in its
predicate form, in which every part that `AND`, `OR` and `NOT` join is a condition; as a value a
condition stands in a `CASE`. -/
namespace EntityQuery

namespace Expr

/-- Conditions rather than values. -/
def isCondition : Expr → Bool
  | binary op _ _ => op.isComparison || op.isLogical
  | unary op _ => op != .neg
  | _ => false

/-- An expression whose leaves under `AND`, `OR` and `NOT` are conditions, with branches written out.
It has the same truth where the conditions of its branches are decided. -/
def predicateForm : Expr → Expr
  | binary .and l r => binary .and (predicateForm l) (predicateForm r)
  | binary .or l r => binary .or (predicateForm l) (predicateForm r)
  | unary .not e => unary .not (predicateForm e)
  | conditional c a b =>
    binary .or (binary .and (predicateForm c) (predicateForm a))
      (binary .and (unary .not (predicateForm c)) (predicateForm b))
  | constant (.bool b) => binary .eq (constant (.int 1)) (constant (.int (if b then 1 else 0)))
  | e => if e.isCondition then e else binary .eq e (constant (.bool true))

end Expr

namespace QueryTree

open Emission

/-- The trees of an expression where a value stands and where a condition stands. -/
structure Readings where
  value : QueryTree
  condition : QueryTree

namespace Readings

/-- `CASE WHEN c THEN TRUE ELSE FALSE END` -/
def ofCondition (c : QueryTree) : Readings := ⟨.cases c (.bool true) (.bool false), c⟩

def ofValue (a : QueryTree) : Readings := ⟨a, .binary .eq a (.bool true)⟩

def ofBool (b : Bool) : Readings :=
  ⟨.bool b, .binary .eq (.whole 1) (.whole (if b then 1 else 0))⟩

def ofBranch (c a b : Readings) : Readings where
  value := .cases c.condition a.value b.value
  condition := .binary .or (.binary .and c.condition a.condition)
    (.binary .and (.not c.condition) b.condition)

end Readings

/-- A negative number is a sign and a magnitude. -/
def ofInt (n : Int64) : QueryTree :=
  if n < 0 then .minus (.whole n.toInt.natAbs) else .whole n.toInt.natAbs

def ofFloat (x : Float) : QueryTree :=
  if Number.isNegative x then .minus (.fraction x.abs) else .fraction x.abs

def ofLiteral : Literal → Readings
  | .int n => .ofValue (ofInt n)
  | .float x => .ofValue (ofFloat x)
  | .string s => .ofValue (.string s)
  | .bool b => .ofBool b
  | .null => .ofValue .null

/-- Remainders are calls, and concatenations where there is no operator for them. -/
def ofOperation (d : Dialect) (op : BinaryOp) (a b : QueryTree) : QueryTree :=
  match op with
  | .mod => .call "MOD" [a, b]
  | .concat => if d.hasConcatOperator then .binary .concat a b else .call "CONCAT" [a, b]
  | op => .binary op a b

def ofBinary (d : Dialect) (op : BinaryOp) (l r : Readings) : Readings :=
  if op.isLogical then .ofCondition (.binary op l.condition r.condition)
  else if op.isComparison then .ofCondition (.binary op l.value r.value)
  else .ofValue (ofOperation d op l.value r.value)

def ofUnary (op : UnaryOp) (a : Readings) : Readings :=
  match op with
  | .not => .ofCondition (.not a.condition)
  | .neg => .ofValue (.minus a.value)
  | .isNull => .ofCondition (.isNull a.value)
  | .isNotNull => .ofCondition (.isNotNull a.value)

def sourceName (ctx : Context) (id : Nat) : String := ctx.aliases[id]?.getD ""

mutual

/-- Aggregates and what is unsupported are not reached by interpretation. -/
def readings (ctx : Context) : Expr → Readings
  | .constant literal => ofLiteral literal
  | .parameter name _ => .ofValue (.parameter name)
  | .source id _ => .ofValue (.source (sourceName ctx id))
  | .field base path _ => .ofValue (path.foldl .member (readings ctx base).value)
  | .binary op left right => ofBinary ctx.dialect op (readings ctx left) (readings ctx right)
  | .unary op operand => ofUnary op (readings ctx operand)
  | .conditional c a b => .ofBranch (readings ctx c) (readings ctx a) (readings ctx b)
  | .apply fn arguments => .ofValue (.call fn.name (values ctx arguments))
  | .tuple _ _ | .aggregate _ _ _ | .unsupported _ => .ofValue .null

def values (ctx : Context) : List Expr → List QueryTree
  | [] => []
  | e :: es => (readings ctx e).value :: values ctx es

end

/-- The tree of an expression in predicate form: operands of `AND`, `OR` and `NOT` are conditions,
all others values. -/
def ofPredicate (ctx : Context) : Expr → QueryTree
  | .binary op l r =>
    if op.isLogical then .binary op (ofPredicate ctx l) (ofPredicate ctx r)
    else ofOperation ctx.dialect op (readings ctx l).value (readings ctx r).value
  | .unary .not e => .not (ofPredicate ctx e)
  | .unary .neg e => .minus (readings ctx e).value
  | .unary .isNull e => .isNull (readings ctx e).value
  | .unary .isNotNull e => .isNotNull (readings ctx e).value
  | .conditional c a b =>
    .cases (readings ctx c).condition (readings ctx a).value (readings ctx b).value
  | e => (readings ctx e).value

/-- The condition of an expression is its predicate form. -/
theorem condition_eq (ctx : Context) (e : Expr) :
    (readings ctx e).condition = ofPredicate ctx e.predicateForm := by
  fun_induction Expr.predicateForm e with
  | case1 l r ihl ihr => exact congrArg₂ (binary .and) ihl ihr
  | case2 l r ihl ihr => exact congrArg₂ (binary .or) ihl ihr
  | case3 e ih => exact congrArg not ih
  | case4 c a b ihc iha ihb =>
    have taken := congrArg₂ (binary .and) ihc iha
    have skipped := congrArg₂ (binary .and) (congrArg not ihc) ihb
    exact congrArg₂ (binary .or) taken skipped
  | case5 b => cases b <;> rfl
  | case6 e notAnd notOr notNot _ _ condition =>
    cases e with
    | binary op l r =>
      cases op with
      | and => exact absurd rfl (notAnd l r)
      | or => exact absurd rfl (notOr l r)
      | _ => first | rfl | cases condition
    | unary op e => cases op <;> first | rfl | exact absurd rfl (notNot e) | cases condition
    | _ => cases condition
  | case7 e notAnd notOr notNot notBranch notBool value =>
    cases e with
    | binary op l r => cases op <;> first | rfl | exact absurd rfl value
    | unary op e => cases op <;> first | rfl | exact absurd rfl value
    | conditional c a b => exact absurd rfl (notBranch c a b)
    | constant l => cases l <;> first | rfl | exact absurd rfl (notBool _)
    | _ => rfl

/-- A value is the expression itself, and a condition in a `CASE` where it is one. -/
theorem value_eq (ctx : Context) (e : Expr) : (readings ctx e).value =
    if e.isCondition then .cases (ofPredicate ctx e.predicateForm) (.bool true) (.bool false)
    else ofPredicate ctx e := by
  rw [← condition_eq]
  cases e with
  | binary op l r => cases op <;> rfl
  | unary op e => cases op <;> rfl
  | _ => rfl

end QueryTree
end EntityQuery
