/-! What is left to libraries: how floats are written, and how lists are sorted. Nothing of it is
fixed here; what a result relies on it assumes. -/
namespace EntityQuery

/-- The libraries that everything here runs with. -/
class Libraries where
  /-- How a float is written in query text. -/
  queryNumber (x : Float) : List Char
  /-- How a finite float is written in JSON. -/
  jsonNumber (x : Float) : List Char
  /-- A list sorted by an order. -/
  sort {α : Type} (order : α → α → Ordering) (l : List α) : List α

end EntityQuery
