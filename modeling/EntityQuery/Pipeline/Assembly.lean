import EntityQuery.Pipeline.Error

/-! Rebuilding stream elements from flat rows. -/
namespace EntityQuery.Nesting

mutual

/-- The value of a nesting and the columns that it leaves. -/
def build : Nesting → Row → Value × Row
  | .leaf, [] => (.null, [])
  | .leaf, v :: rest => (v, rest)
  | .group parts, row =>
    let (items, rest) := buildAll parts row
    (.tuple items, rest)

def buildAll : List Nesting → Row → List Value × Row
  | [], row => ([], row)
  | part :: parts, row =>
    let (v, rest) := build part row
    let (vs, rest) := buildAll parts rest
    (v :: vs, rest)

end

/-- A row has one column for each leaf. -/
def assemble (nesting : Nesting) (row : Row) : Except QueryError Value :=
  if row.length = nesting.width then .ok (nesting.build row).1
  else .error (.rowShape nesting.width row.length)

end EntityQuery.Nesting
