import EntityQuery.Expr.Tuple
import EntityQuery.Query.Alias
import EntityQuery.Query.Model
import EntityQuery.Query.Token

/-! Query text for a model, as tokens.

Truth is written differently by position. As a condition, after `WHERE` or `WHEN` or under
`AND`, `OR` and `NOT`, a bare value becomes a comparison with true and a branch becomes its
expansion. As a value, a condition becomes `CASE WHEN .. THEN TRUE ELSE FALSE END`.

A left operand is in parentheses when its operator binds less tightly, a right operand unless it
is a literal or a parameter, and what `NOT` negates always. -/
namespace EntityQuery

/-- Conditions over atoms. -/
inductive Condition (α : Type) where
  | atom (a : α)
  | not (c : Condition α)
  | and (left right : Condition α)
  | or (left right : Condition α)

namespace Emission

open Token

def parens (ts : List Token) : List Token := leftParen :: ts ++ [rightParen]

def parensIf (wrap : Bool) (ts : List Token) : List Token := if wrap then parens ts else ts

def commaSeparated : List (List Token) → List Token
  | [] => []
  | first :: rest => first ++ rest.flatMap fun ts => comma :: space :: ts

def spaced (ts : List Token) : List Token := space :: ts ++ [space]

end Emission

/-- A disjunction on the left of `AND` is wrapped, and so is every right operand, as no
condition is a literal. -/
def Condition.tokens : Condition (List Token) → List Token
  | atom ts => ts
  | not c => .word .NOT :: .space :: Emission.parens c.tokens
  | and left right =>
    Emission.parensIf (match left with | or _ _ => true | _ => false) left.tokens
      ++ Emission.spaced [.word .AND] ++ Emission.parens right.tokens
  | or left right =>
    left.tokens ++ Emission.spaced [.word .OR] ++ Emission.parens right.tokens

/-- The tokens of an expression where a value stands, and its condition where one stands. -/
structure Rendering where
  value : List Token
  condition : Condition (List Token)

namespace Rendering

open Token Emission

/-- `CASE WHEN condition THEN whenTrue ELSE whenFalse END`. -/
def caseTokens (condition whenTrue whenFalse : List Token) : List Token :=
  [word .CASE, space, word .WHEN, space] ++ condition
    ++ [space, word .THEN, space] ++ whenTrue
    ++ [space, word .ELSE, space] ++ whenFalse ++ [space, word .END]

def ofCondition (c : Condition (List Token)) : Rendering where
  value := caseTokens c.tokens [bool true] [bool false]
  condition := c

def ofValue (ts : List Token) : Rendering where
  value := ts
  condition := .atom (ts ++ spaced [symbol .eq] ++ [bool true])

/-- A literal truth value as a condition compares 1 with 1 or 0. -/
def ofBool (b : Bool) : Rendering where
  value := [bool b]
  condition := .atom (int 1 :: spaced [symbol .eq] ++ [int (if b then 1 else 0)])

def ofLiteral : Literal → Rendering
  | .int n => ofValue [int n]
  | .float x => ofValue [float x]
  | .string s => ofValue [string s]
  | .bool b => ofBool b
  | .null => ofValue [null]

/-- A condition that takes the first branch if it holds and the second if its negation does. -/
def ofBranch (c a b : Rendering) : Rendering where
  value := caseTokens c.condition.tokens a.value b.value
  condition := .or (.and c.condition a.condition) (.and (.not c.condition) b.condition)

def call (name : String) (arguments : List (List Token)) : List Token :=
  function name :: parens (commaSeparated arguments)

end Rendering

namespace Emission

open Token

/-- What the choices of an emission depend on besides the expression. -/
structure Context where
  dialect : Dialect
  aliases : List String

def Context.aliasOf (ctx : Context) (id : Nat) : Token := sourceName (ctx.aliases[id]?.getD "")

def operatorToken : BinaryOp → Token
  | .eq => symbol .eq
  | .ne => symbol .ne
  | .lt => symbol .lt
  | .gt => symbol .gt
  | .le => symbol .le
  | .ge => symbol .ge
  | .and => word .AND
  | .or => word .OR
  | .add => symbol .plus
  | .sub => symbol .minus
  | .mul => symbol .times
  | .div => symbol .divide
  | .concat => symbol .concat
  | .mod => function "MOD"

def bindsLooser (op : BinaryOp) : Expr → Bool
  | .binary inner _ _ => inner.precedence < op.precedence
  | _ => false

/-- A second minus sign right after the first would start a comment. -/
def wrapAfterMinus : Expr → Bool
  | .binary _ _ _ | .unary _ _ => true
  | .constant (.int n) => n < 0
  | .constant (.float x) => Number.isNegative x
  | _ => false

def isBinary : Expr → Bool
  | .binary _ _ _ => true
  | _ => false

def pathTokens (names : List String) : List Token :=
  names.flatMap fun name => [dot, attributeName name]

/-- A binary operation between operands that stand as values. -/
def operation (op : BinaryOp) (left right : Expr) (leftTokens rightTokens : List Token) :
    List Token :=
  parensIf (bindsLooser op left) leftTokens ++ spaced [operatorToken op]
    ++ parensIf (!right.isLeaf) rightTokens

def renderBinary (ctx : Context) (op : BinaryOp) (left right : Expr) (l r : Rendering) :
    Rendering :=
  match op with
  | .and => .ofCondition (.and l.condition r.condition)
  | .or => .ofCondition (.or l.condition r.condition)
  | .mod => .ofValue (Rendering.call "MOD" [l.value, r.value])
  | .concat =>
    if ctx.dialect.hasConcatOperator then .ofValue (operation .concat left right l.value r.value)
    else .ofValue (Rendering.call "CONCAT" [l.value, r.value])
  | op =>
    if op.isComparison then .ofCondition (.atom (operation op left right l.value r.value))
    else .ofValue (operation op left right l.value r.value)

def renderUnary (op : UnaryOp) (operand : Expr) (x : Rendering) : Rendering :=
  match op with
  | .not => .ofCondition (.not x.condition)
  | .neg => .ofValue (symbol .minus :: parensIf (wrapAfterMinus operand) x.value)
  | .isNull =>
    .ofCondition (.atom (parensIf (isBinary operand) x.value ++ [space, word .IS_NULL]))
  | .isNotNull =>
    .ofCondition (.atom (parensIf (isBinary operand) x.value ++ [space, word .IS_NOT_NULL]))

mutual

/-- Unsupported nodes never come from a valid model. -/
def render (ctx : Context) : Expr → Rendering
  | .constant literal => .ofLiteral literal
  | .parameter name _ => .ofValue [parameter name]
  | .source id _ => .ofValue [ctx.aliasOf id]
  | .field base path _ => .ofValue ((render ctx base).value ++ pathTokens path)
  | .binary op left right => renderBinary ctx op left right (render ctx left) (render ctx right)
  | .unary op operand => renderUnary op operand (render ctx operand)
  | .conditional condition whenTrue whenFalse =>
    .ofBranch (render ctx condition) (render ctx whenTrue) (render ctx whenFalse)
  | .tuple elements _ => .ofValue (commaSeparated (renderValues ctx elements))
  | .aggregate kind argument distinct =>
    .ofValue (function kind.name :: parens
      ((if distinct then [word .DISTINCT, space] else []) ++ (render ctx argument).value))
  | .apply fn arguments => .ofValue (Rendering.call fn.name (renderValues ctx arguments))
  | .unsupported _ => .ofValue [null]

def renderValues (ctx : Context) : List Expr → List (List Token)
  | [] => []
  | e :: es => (render ctx e).value :: renderValues ctx es

end

def sourceTokens (ctx : Context) : Source → List Token
  | .root name => [entity name]
  | .path parent names _ => ctx.aliasOf parent :: pathTokens names

def fromTokens (ctx : Context) (sources : List Source) : List Token :=
  commaSeparated (sources.zipIdx.map fun (source, id) =>
    sourceTokens ctx source ++ [space, ctx.aliasOf id])

def directionWord : Direction → Word
  | .ascending => .ASC
  | .descending => .DESC

def orderTokens (ctx : Context) (key : OrderKey) : List Token :=
  (render ctx key.expr).value ++ [space, word (directionWord key.direction)]

def projectionTokens (ctx : Context) : Option Expr → List Token
  | some e => commaSeparated (renderValues ctx e.columns)
  | none => [ctx.aliasOf 0]

end Emission

namespace QueryModel

open Token Emission

def emissionContext (m : QueryModel) (dialect : Dialect) : Context :=
  ⟨dialect, Alias.names m.sources.length⟩

/-- The window is not part of the text. -/
def tokens (m : QueryModel) (dialect : Dialect) : List Token :=
  let ctx := m.emissionContext dialect
  [word .SELECT, space]
    ++ (if m.distinct then [word .DISTINCT, space] else [])
    ++ projectionTokens ctx m.projection
    ++ spaced [word .FROM] ++ fromTokens ctx m.sources
    ++ (match m.predicate with
      | some e => spaced [word .WHERE] ++ (render ctx e).condition.tokens
      | none => [])
    ++ (match m.ordering with
      | [] => []
      | keys => spaced [word .ORDER_BY] ++ commaSeparated (keys.map (orderTokens ctx)))

def text [Libraries] (m : QueryModel) (dialect : Dialect) : String := tokensText dialect
    (m.tokens dialect)

end QueryModel
end EntityQuery
