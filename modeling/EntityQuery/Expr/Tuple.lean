import EntityQuery.Expr.Basic

/-! Building and projecting flattened tuples, and navigation along paths. -/
namespace EntityQuery.Expr

/-- The leaf columns of an expression: the elements of a tuple, else the expression alone. -/
def columns : Expr → List Expr
  | tuple elements _ => elements
  | e => [e]

def nesting : Expr → Nesting
  | tuple _ nesting => nesting
  | _ => .leaf

/-- Nested tuples are spliced into one sequence of leaf columns. -/
def tupleOf (items : List Expr) : Expr :=
  tuple (items.flatMap columns) (.group (items.map nesting))

/-- The columns of one part of a tuple, found by the widths of the parts before it. -/
def part? (elements : List Expr) (offset : Nat) : Nesting → Option Expr
  | .leaf => elements[offset]?
  | .group parts =>
    let width := Nesting.totalWidth parts
    if offset + width ≤ elements.length then
      some (tuple ((elements.drop offset).take width) (.group parts))
    else none

/-- A component of a tuple, which is a tuple again if it was one. -/
def element? : Expr → Nat → Option Expr
  | tuple elements (.group parts), index => do
    let part ← parts[index]?
    part? elements (Nesting.totalWidth (parts.take index)) part
  | _, _ => none

/-- Reading an attribute of a navigation makes its path longer. -/
def navigate (name : String) (type : ExprType) : Expr → Expr
  | field base path _ => field base (path ++ [name]) type
  | base => field base [name] type

end EntityQuery.Expr
