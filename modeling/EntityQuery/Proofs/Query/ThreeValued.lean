import EntityQuery.Proofs.Expr.Value
import EntityQuery.Proofs.Query.Trees

/-! Query text over one row under three-valued logic: a comparison with `NULL` is unknown, `AND`,
`OR` and `NOT` follow Kleene, and `CASE` takes `ELSE` unless its condition holds. Where no `NULL`
is involved operators give what they give on values. -/
namespace EntityQuery

inductive Truth where
  | holds
  | fails
  | unknown
deriving Repr, DecidableEq

namespace Truth

def ofBool : Bool → Truth
  | true => holds
  | false => fails

def not : Truth → Truth
  | holds => fails
  | fails => holds
  | unknown => unknown

def and : Truth → Truth → Truth
  | fails, _ | _, fails => fails
  | holds, t => t
  | unknown, _ => unknown

def or : Truth → Truth → Truth
  | holds, _ | _, holds => holds
  | fails, t => t
  | unknown, _ => unknown

def logical (op : BinaryOp) (s t : Truth) : Truth := if op = .and then s.and t else s.or t

/-- The two-valued answer is not contradicted. -/
def Allows (t : Truth) (b : Bool) : Prop := t = ofBool b ∨ t = unknown

variable {s t : Truth} {a b : Bool}

theorem Allows.not (h : t.Allows b) : t.not.Allows !b := by
  rcases h with rfl | rfl
  · cases b <;> exact .inl rfl
  · exact .inr rfl

/-- An operation that the left operand decides is not contradicted by any right one. -/
theorem Allows.logical_alone {op : BinaryOp} (hs : s.Allows a)
    (alone : Expr.decidesAlone op (.bool a)) : (logical op s t).Allows a := by
  unfold Expr.decidesAlone at alone
  split at alone
  · next h => cases h; rcases hs with rfl | rfl <;> cases t <;> simp [logical, and, Allows, ofBool]
  · next h => cases h; rcases hs with rfl | rfl <;> cases t <;> simp [logical, or, Allows, ofBool]
  · cases alone

theorem Allows.logical (op : BinaryOp) (hs : s.Allows a) (ht : t.Allows b) :
    (logical op s t).Allows (if op = .and then a && b else a || b) := by
  unfold Truth.logical
  split <;> rcases hs with rfl | rfl <;> rcases ht with rfl | rfl <;> cases a <;> cases b <;>
    simp [Truth.and, Truth.or, Allows, ofBool]

/-- The expansion of a branch is not contradicted by the arm taken. -/
theorem Allows.branch {c u v : Truth} (hc : c.Allows a)
    (h : if a then u.Allows b else v.Allows b) :
    ((c.and u).or (c.not.and v)).Allows b := by
  cases a with
  | true =>
    rcases hc with rfl | rfl <;> rcases h with rfl | rfl <;> cases b <;> cases v <;>
      simp [Truth.and, Truth.or, Truth.not, Allows, ofBool]
  | false =>
    rcases hc with rfl | rfl <;> rcases h with rfl | rfl <;> cases b <;> cases u <;>
      simp [Truth.and, Truth.or, Truth.not, Allows, ofBool]

/-- Where the answer is known it is the two-valued one. -/
theorem Allows.holds_iff (h : t.Allows b) :
    (b = true ↔ t = holds) ↔ ¬ (b = true ∧ t = unknown) := by
  rcases h with rfl | rfl <;> cases b <;> simp [ofBool]

end Truth

/-- What an engine makes of operations that have no value here. -/
structure QueryEngine where
  source : Nat → Value
  readAttribute : Value → String → Value
  binary : BinaryOp → Value → Value → Value
  test : BinaryOp → Value → Value → Truth
  unary : UnaryOp → Value → Value
  apply : ScalarFn → List Value → Value

namespace QueryEngine

variable (engine : QueryEngine)

/-- Reading through `NULL` leads to `NULL`. -/
def readAttributeOf (v : Value) (name : String) : Value :=
  if v.isNull then .null
  else match v.readAttribute name with
    | .ok w => w
    | .error _ => engine.readAttribute v name

/-- Operations with `NULL` are `NULL`. -/
def binaryOf (op : BinaryOp) (a b : Value) : Value :=
  if a.isNull || b.isNull then .null
  else match Value.binary op a b with
    | .ok v => v
    | .error _ => engine.binary op a b

def testOf (op : BinaryOp) (a b : Value) : Truth :=
  if a.isNull || b.isNull then .unknown
  else match Value.binary op a b with
    | .ok (.bool t) => .ofBool t
    | _ => engine.test op a b

def unaryOf (op : UnaryOp) (a : Value) : Value :=
  if a.isNull then .null
  else match Value.unary op a with
    | .ok v => v
    | .error _ => engine.unary op a

def applyOf (fn : ScalarFn) : List Value → Value
  | a :: rest =>
    match fn.applyTo a with
    | .ok v => v
    | .error _ => engine.apply fn (a :: rest)
  | [] => engine.apply fn []

end QueryEngine

/-- What the text of an expression is where a value stands and where a condition stands. -/
structure Outcome where
  value : Value
  truth : Truth

namespace Outcome

def ofTruth (t : Truth) : Outcome := ⟨.bool (t = .holds), t⟩

def ofValue (engine : QueryEngine) (v : Value) : Outcome := ⟨v, engine.testOf .eq v (.bool true)⟩

def ofLiteral (engine : QueryEngine) : Literal → Outcome
  | .bool b => ⟨.bool b, .ofBool b⟩
  | l => .ofValue engine l.value

def ofBranch (c a b : Outcome) : Outcome where
  value := if c.truth = .holds then a.value else b.value
  truth := (c.truth.and a.truth).or (c.truth.not.and b.truth)

end Outcome

namespace QueryEngine

variable (engine : QueryEngine)

def ofBinary (op : BinaryOp) (l r : Outcome) : Outcome :=
  if op.isLogical then .ofTruth (.logical op l.truth r.truth)
  else if op.isComparison then .ofTruth (engine.testOf op l.value r.value)
  else .ofValue engine (engine.binaryOf op l.value r.value)

def ofUnary (op : UnaryOp) (a : Outcome) : Outcome :=
  match op with
  | .not => .ofTruth a.truth.not
  | .isNull => .ofTruth (.ofBool a.value.isNull)
  | .isNotNull => .ofTruth (.ofBool !a.value.isNull)
  | .neg => .ofValue engine (engine.unaryOf .neg a.value)

mutual

def outcome (row : SourceRow) : Expr → Outcome
  | .constant literal => .ofLiteral engine literal
  | .parameter _ v => .ofValue engine v
  | .source id _ => .ofValue engine (row[id]?.getD (engine.source id))
  | .field base path _ =>
    .ofValue engine (path.foldl engine.readAttributeOf (outcome row base).value)
  | .binary op left right => engine.ofBinary op (outcome row left) (outcome row right)
  | .unary op operand => engine.ofUnary op (outcome row operand)
  | .conditional c a b => .ofBranch (outcome row c) (outcome row a) (outcome row b)
  | .tuple elements nesting => .ofValue engine (nesting.build (outcomeValues row elements)).1
  | .apply fn arguments => .ofValue engine (engine.applyOf fn (outcomeValues row arguments))
  | .aggregate _ _ _ | .unsupported _ => .ofValue engine .null

def outcomeValues (row : SourceRow) : List Expr → List Value
  | [] => []
  | e :: es => (outcome row e).value :: outcomeValues row es

end

/-- The truth of an expression in predicate form: what `AND`, `OR` and `NOT` join are conditions,
and operands of tests are values. -/
def truthOfForm (row : SourceRow) : Expr → Truth
  | .binary .and l r => (truthOfForm row l).and (truthOfForm row r)
  | .binary .or l r => (truthOfForm row l).or (truthOfForm row r)
  | .unary .not e => (truthOfForm row e).not
  | .unary .isNull e => .ofBool (engine.outcome row e).value.isNull
  | .unary .isNotNull e => .ofBool !(engine.outcome row e).value.isNull
  | .binary op l r => engine.testOf op (engine.outcome row l).value (engine.outcome row r).value
  | e => (engine.outcome row e).truth

/-- The truth of an expression is that of its predicate form. -/
theorem truth_eq (row : SourceRow) (e : Expr) :
    (engine.outcome row e).truth = engine.truthOfForm row e.predicateForm := by
  fun_induction Expr.predicateForm e with
  | case1 l r ihl ihr => exact congrArg₂ Truth.and ihl ihr
  | case2 l r ihl ihr => exact congrArg₂ Truth.or ihl ihr
  | case3 e ih => exact congrArg Truth.not ih
  | case4 c a b ihc iha ihb =>
    have taken := congrArg₂ Truth.and ihc iha
    have skipped := congrArg₂ Truth.and (congrArg Truth.not ihc) ihb
    exact congrArg₂ Truth.or taken skipped
  | case5 b => cases b <;> rfl
  | case6 e notAnd notOr notNot _ _ condition =>
    cases e with
    | binary op l r =>
      cases op with
      | and => exact absurd rfl (notAnd l r)
      | or => exact absurd rfl (notOr l r)
      | _ => first | rfl | cases condition
    | unary op e => cases op <;> first | rfl | exact absurd rfl (notNot e)
    | _ => cases condition
  | case7 e notAnd notOr notNot notBranch notBool value =>
    cases e with
    | binary op l r => cases op <;> first | rfl | exact absurd rfl value
    | unary op e => cases op <;> first | rfl | exact absurd rfl value
    | conditional c a b => exact absurd rfl (notBranch c a b)
    | constant l => cases l <;> first | rfl | exact absurd rfl (notBool _)
    | _ => rfl

end QueryEngine
end EntityQuery
