import EntityQuery.Libraries.Basic
import EntityQuery.Number.Layout

/-! Libraries that write a float with the fewest digits that stand for it, and sort by insertion. -/
namespace EntityQuery.Libraries.Plain

/-- Positional from `0.00001` to below `1e16`; a float always shows a point or an exponent. -/
def queryLayout : Number.Layout where
  tie := .toEven
  positional lead := -5 ≤ lead && lead < 16
  wholePoint := true
  plusSign := false

def jsonLayout : Number.Layout := { queryLayout with plusSign := true }

section Insertion

variable {α : Type} (order : α → α → Ordering)

/-- Puts an element into a list sorted backwards, before all that it does not precede. -/
def insert (a : α) : List α → List α
  | [] => [a]
  | b :: l => if order a b == .lt then b :: insert a l else a :: b :: l

def insertionSort (l : List α) : List α :=
  (l.foldl (fun sorted a => insert order a sorted) []).reverse

end Insertion

scoped instance : Libraries where
  queryNumber := queryLayout.write
  jsonNumber := jsonLayout.write
  sort := insertionSort

end EntityQuery.Libraries.Plain
