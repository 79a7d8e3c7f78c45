import EntityQuery.Text.Quoted

/-! The types of query expressions, and the nesting of flattened tuples. -/
namespace EntityQuery

/-- `unknown` is the type of a null literal and of what is unsupported. -/
inductive ExprType where
  | boolean
  | numeric
  | string
  | entity (name : String)
  | collection (name : String)
  | tuple
  | unknown
deriving Repr, DecidableEq

namespace ExprType

/-- Whether a value of the type fits a single column that is no entity. -/
def isScalar : ExprType → Bool
  | boolean | numeric | string => true
  | _ => false

def entityName? : ExprType → Option String
  | entity name => some name
  | _ => none

/-- Whether a value of the type is more than one value. -/
def isPlural : ExprType → Bool
  | tuple | collection _ => true
  | _ => false

/-- Whether an argument of type `actual` fits a slot of type `expected`. -/
def accepts (expected actual : ExprType) : Bool := actual = expected || actual = unknown

def toText : ExprType → String
  | boolean => "Boolean"
  | numeric => "Numeric"
  | string => "String"
  | entity name => "Entity(" ++ Text.quoted name ++ ")"
  | collection name => "Collection(" ++ Text.quoted name ++ ")"
  | tuple => "Tuple"
  | unknown => "Unknown"

end ExprType

/-- How leaf columns are grouped: the pair of the pair of `a` and `b` with `c` has the leaves
`a`, `b`, `c` and the nesting `group [group [leaf, leaf], leaf]`. -/
inductive Nesting where
  | leaf
  | group (parts : List Nesting)
deriving Repr, Inhabited

namespace Nesting

mutual

/-- The number of leaf columns. -/
def width : Nesting → Nat
  | leaf => 1
  | group parts => totalWidth parts

def totalWidth : List Nesting → Nat
  | [] => 0
  | part :: parts => width part + totalWidth parts

end

mutual

def same : Nesting → Nesting → Bool
  | leaf, leaf => true
  | group a, group b => sameParts a b
  | _, _ => false

def sameParts : List Nesting → List Nesting → Bool
  | [], [] => true
  | a :: as, b :: bs => same a b && sameParts as bs
  | _, _ => false

end

instance : BEq Nesting := ⟨same⟩

end Nesting
end EntityQuery
