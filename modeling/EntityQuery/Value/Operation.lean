import EntityQuery.Expr.Operator
import EntityQuery.Number.Binary64
import EntityQuery.Text.Blank
import EntityQuery.Text.Case
import EntityQuery.Value.Order
import EntityQuery.Value.Text

/-! Operators and functions of the query language on values, and how they fail. -/
namespace EntityQuery

/-- Why a lambda has no value. -/
inductive EvalError where
  | missingArgument (index : Nat)
  | unknownAttribute (entity name : String)
  | nullNavigation (name : String)
  | typeMismatch (operation : String) (found : Kind)
  | divisionByZero
  | indexOutOfRange (index : Nat)
  | external (function reason : String)
  | entitySource (reason : String)
  /-- An operation was read before it was recorded. -/
  | unscoped (id : Nat)
deriving Repr, DecidableEq

def EvalError.message : EvalError → String
  | missingArgument index =>
    "lambda expects argument " ++ toString index ++ " but it was not supplied"
  | unknownAttribute entity name => entity ++ " has no attribute " ++ name
  | nullNavigation name => "cannot read " ++ name ++ " of null"
  | typeMismatch operation found => operation ++ " is not defined for " ++ found.name
  | divisionByZero => "division by zero"
  | indexOutOfRange index => "tuple has no element " ++ toString index
  | external function reason => function ++ " failed: " ++ reason
  | entitySource reason => "entity source unavailable: " ++ reason
  | unscoped id => "operation " ++ toString id ++ " is not recorded"

namespace Value

def operatorMismatch (op : BinaryOp) (found : Value) : EvalError :=
  .typeMismatch ("operator " ++ op.symbol) found.kind

/-- Numbers are equal across integers and floats; else values are equal kind by kind. -/
def equals : Value → Value → Bool
  | int a, float b => Number.ofInt64 a == b
  | float a, int b => a == Number.ofInt64 b
  | a, b => a == b

/-- Integers wrap around and divide toward zero. -/
def intOperation (op : BinaryOp) (a b : Int64) : Except EvalError Value :=
  match op with
  | .add => .ok (int (a + b))
  | .sub => .ok (int (a - b))
  | .mul => .ok (int (a * b))
  | .div => if b == 0 then .error .divisionByZero else .ok (int (a / b))
  | _ => if b == 0 then .error .divisionByZero else .ok (int (a % b))

def floatOperation (op : BinaryOp) (a b : Float) : Float :=
  match op with
  | .add => a + b
  | .sub => a - b
  | .mul => a * b
  | .div => a / b
  | _ => Number.remainder a b

/-- The first operand that is no number is at fault. -/
def arithmetic (op : BinaryOp) (a b : Value) : Except EvalError Value :=
  match a, b with
  | int m, int n => intOperation op m n
  | a, b =>
    match a.asFloat?, b.asFloat? with
    | some x, some y => .ok (float (floatOperation op x y))
    | none, _ => .error (operatorMismatch op a)
    | _, none => .error (operatorMismatch op b)

def logical (op : BinaryOp) (a b : Value) : Except EvalError Value :=
  match a.asBool?, b.asBool? with
  | some p, some q => .ok (bool (if op = .and then p && q else p || q))
  | none, _ => .error (operatorMismatch op a)
  | _, none => .error (operatorMismatch op b)

/-- Whether an order makes a comparison true. -/
def holds (op : BinaryOp) (o : Ordering) : Bool :=
  match op with
  | .lt => o == .lt
  | .gt => o == .gt
  | .le => o != .gt
  | _ => o != .lt

/-- No comparison with null is true; values that are not ordered cannot be compared. -/
def comparison (op : BinaryOp) (a b : Value) : Except EvalError Value :=
  if a.isNull || b.isNull then .ok (bool false)
  else match compare a b with
    | some o => .ok (bool (holds op o))
    | none => .error (operatorMismatch op b)

def concatenate (a b : Value) : Value := string (a.toText ++ b.toText)

def isString : Value → Bool
  | string _ => true
  | _ => false

def binary (op : BinaryOp) (a b : Value) : Except EvalError Value :=
  match op with
  | .and | .or => logical op a b
  | .eq => .ok (bool (equals a b))
  | .ne => .ok (bool !(equals a b))
  | .lt | .gt | .le | .ge => comparison op a b
  | .concat => .ok (concatenate a b)
  | .add => if a.isString || b.isString then .ok (concatenate a b) else arithmetic op a b
  | .sub | .mul | .div | .mod => arithmetic op a b

def unary (op : UnaryOp) (a : Value) : Except EvalError Value :=
  match op, a with
  | .isNull, a => .ok (bool a.isNull)
  | .isNotNull, a => .ok (bool !a.isNull)
  | .not, bool b => .ok (bool !b)
  | .neg, int n => .ok (int (-n))
  | .neg, float x => .ok (float (-x))
  | op, a => .error (.typeMismatch op.name a.kind)

def readAttribute (base : Value) (name : String) : Except EvalError Value :=
  match base with
  | entity type attributes =>
    match Dictionary.find? attributes name with
    | some v => .ok v
    | none => .error (.unknownAttribute type name)
  | null => .error (.nullNavigation name)
  | other => .error (.typeMismatch ("read of " ++ name) other.kind)

end Value

namespace ScalarFn

def mapChars (f : List Char → List Char) (s : String) : Value :=
  .string (String.ofList (f s.toList))

/-- Null stays null. The absolute value of the least integer is itself; a length counts
characters. -/
def applyTo (fn : ScalarFn) (v : Value) : Except EvalError Value :=
  match fn, v with
  | _, .null => .ok .null
  | abs, .int n => .ok (.int (if n < 0 then -n else n))
  | abs, .float x => .ok (.float x.abs)
  | sqrt, .int n => .ok (.float (Number.ofInt64 n).sqrt)
  | sqrt, .float x => .ok (.float x.sqrt)
  | upper, .string s => .ok (mapChars Text.upper s)
  | lower, .string s => .ok (mapChars Text.lower s)
  | trim, .string s => .ok (mapChars Text.trim s)
  | length, .string s => .ok (.int (.ofNat s.length))
  | fn, v => .error (.typeMismatch fn.name v.kind)

end ScalarFn
end EntityQuery
