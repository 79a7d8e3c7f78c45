import EntityQuery.Value.Basic

/-! Readers that turn a value into a plain type, and what they refuse. -/
namespace EntityQuery

/-- What a reader looks for. -/
inductive Sought where
  | string
  | integer
  | number
  | boolean
  | entity
  | pair
deriving Repr, DecidableEq

def Sought.name : Sought → String
  | string => "string"
  | integer => "integer"
  | number => "number"
  | boolean => "boolean"
  | entity => "entity"
  | pair => "pair"

structure ConversionError where
  expected : Sought
  found : Kind
deriving Repr, DecidableEq

def ConversionError.message (e : ConversionError) : String :=
  "expected " ++ e.expected.name ++ ", found " ++ e.found.name

abbrev Reader (α : Type) := Value → Except ConversionError α

namespace Reader

variable {α β : Type}

/-- Takes the value if the view on it is there. -/
def ofView (sought : Sought) (view : Value → Option α) : Reader α := fun v =>
  match view v with
  | some a => .ok a
  | none => .error ⟨sought, v.kind⟩

def value : Reader Value := .ok

def string : Reader String := ofView .string Value.asString?

def int : Reader Int64 := ofView .integer Value.asInt?

/-- Integers are read too. -/
def float : Reader Float := ofView .number Value.asFloat?

def bool : Reader Bool := ofView .boolean Value.asBool?

def entity : Reader Entity := ofView .entity Value.asEntity?

/-- Null is nothing. -/
def option (read : Reader α) : Reader (Option α)
  | .null => .ok none
  | v => (read v).map some

/-- A tuple of two; the first member is read first. -/
def pair (first : Reader α) (second : Reader β) : Reader (α × β)
  | .tuple [a, b] => do return (← first a, ← second b)
  | v => .error ⟨.pair, v.kind⟩

def map (f : α → β) (read : Reader α) : Reader β := fun v => (read v).map f

end Reader
end EntityQuery
