import EntityQuery.Dictionary
import EntityQuery.Number.Binary64

/-! Values as a data engine returns them, their kinds, and the views on them. -/
namespace EntityQuery

/-- The attributes of an entity are in ascending order of their names. A list holds the members
of a to-many relationship; a tuple is built by a projection or a join. -/
inductive Value where
  | null
  | bool (b : Bool)
  | int (n : Int64)
  | float (x : Float)
  | string (s : String)
  | entity (type : String) (attributes : List (String × Value))
  | list (items : List Value)
  | tuple (items : List Value)
deriving Inhabited

/-- One value for each projected column. -/
abbrev Row := List Value

/-- An instance of an entity type. -/
structure Entity where
  type : String
  attributes : Dictionary Value

inductive Kind where
  | null
  | boolean
  | integer
  | float
  | string
  | entity
  | list
  | tuple
deriving Repr, DecidableEq

def Kind.name : Kind → String
  | null => "null"
  | boolean => "boolean"
  | integer => "integer"
  | float => "float"
  | string => "string"
  | entity => "entity"
  | list => "list"
  | tuple => "tuple"

namespace Value

def kind : Value → Kind
  | null => .null
  | bool _ => .boolean
  | int _ => .integer
  | float _ => .float
  | string _ => .string
  | entity _ _ => .entity
  | list _ => .list
  | tuple _ => .tuple

def pair (first second : Value) : Value := tuple [first, second]

def isNull : Value → Bool
  | null => true
  | _ => false

def asBool? : Value → Option Bool
  | bool b => some b
  | _ => none

def asInt? : Value → Option Int64
  | int n => some n
  | _ => none

/-- Integers widen to the nearest float. -/
def asFloat? : Value → Option Float
  | int n => some (Number.ofInt64 n)
  | float x => some x
  | _ => none

def asString? : Value → Option String
  | string s => some s
  | _ => none

def asEntity? : Value → Option Entity
  | entity type attributes => some ⟨type, attributes⟩
  | _ => none

/-- A member of a tuple, from 0. -/
def element? : Value → Nat → Option Value
  | tuple items, i => items[i]?
  | _, _ => none

def attribute? : Value → String → Option Value
  | entity _ attributes, name => Dictionary.find? attributes name
  | _, _ => none

mutual

/-- Equality kind by kind: an integer never equals a float, and a NaN not even itself. -/
def same : Value → Value → Bool
  | null, null => true
  | bool a, bool b => a == b
  | int a, int b => a == b
  | float a, float b => a == b
  | string a, string b => a == b
  | entity t a, entity u b => t == u && sameEntries a b
  | list a, list b => sameItems a b
  | tuple a, tuple b => sameItems a b
  | _, _ => false

def sameItems : List Value → List Value → Bool
  | [], [] => true
  | a :: as, b :: bs => same a b && sameItems as bs
  | _, _ => false

def sameEntries : List (String × Value) → List (String × Value) → Bool
  | [], [] => true
  | (k, a) :: as, (l, b) :: bs => k == l && same a b && sameEntries as bs
  | _, _ => false

end

instance : BEq Value := ⟨same⟩

end Value
end EntityQuery
