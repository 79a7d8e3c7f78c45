import EntityQuery.Expr.Basic

/-! The nodes of an expression, parents before children, and what is found among them. -/
namespace EntityQuery.Expr

mutual

def nodes : Expr → List Expr
  | constant l => [constant l]
  | parameter n v => [parameter n v]
  | source i t => [source i t]
  | field base path type => field base path type :: nodes base
  | binary op left right => binary op left right :: (nodes left ++ nodes right)
  | unary op operand => unary op operand :: nodes operand
  | conditional c a b => conditional c a b :: (nodes c ++ nodes a ++ nodes b)
  | tuple elements nesting => tuple elements nesting :: nodesOfAll elements
  | aggregate kind argument distinct => aggregate kind argument distinct :: nodes argument
  | apply fn arguments => apply fn arguments :: nodesOfAll arguments
  | unsupported r => [unsupported r]

def nodesOfAll : List Expr → List Expr
  | [] => []
  | e :: es => nodes e ++ nodesOfAll es

end

def sourceId? : Expr → Option Nat
  | source id _ => some id
  | _ => none

def insertAscending (n : Nat) : List Nat → List Nat
  | [] => [n]
  | m :: ms => if n < m then n :: m :: ms else if n = m then m :: ms else m :: insertAscending n ms

/-- The sources an expression refers to, in ascending order. -/
def sources (e : Expr) : List Nat :=
  (e.nodes.filterMap sourceId?).foldl (fun found id => insertAscending id found) []

def reason? : Expr → Option String
  | unsupported reason => some reason
  | _ => none

/-- The reason of the first unsupported node. -/
def firstUnsupported? (e : Expr) : Option String := e.nodes.findSome? reason?

def parameter? : Expr → Option (String × Value)
  | parameter name value => some (name, value)
  | _ => none

/-- A parameter is listed where its name first appears with its value. -/
def addParameter (found : List (String × Value)) (p : String × Value) : List (String × Value) :=
  if found.any fun q => q.1 == p.1 && q.2 == p.2 then found else found ++ [p]

def parameters (e : Expr) : List (String × Value) :=
  (e.nodes.filterMap parameter?).foldl addParameter []

end EntityQuery.Expr
