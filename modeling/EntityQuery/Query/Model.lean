import EntityQuery.Expr.Json
import EntityQuery.Expr.Tuple
import EntityQuery.Query.Hints
import EntityQuery.Query.Window

/-! The model of one flat query. -/
namespace EntityQuery

/-- A source of rows: all instances of an entity type, or the members of a to-many relationship
that a path reaches from an earlier source. -/
inductive Source where
  | root (entity : String)
  | path (parent : Nat) (names : List String) (entity : String)
deriving Repr, DecidableEq

def Source.entity : Source → String
  | root entity => entity
  | path _ _ entity => entity

inductive Direction where
  | ascending
  | descending
deriving Repr, DecidableEq

structure OrderKey where
  expr : Expr
  direction : Direction

/-- The first key of `ordering` is the primary one. Without a projection the element of the
stream is the first source. -/
structure QueryModel where
  sources : List Source
  predicate : Option Expr := none
  projection : Option Expr := none
  ordering : List OrderKey := []
  distinct : Bool := false
  window : Window := {}
  hints : Hints := {}

namespace QueryModel

/-- All instances of an entity type. -/
def root (entity : String) : QueryModel := { sources := [.root entity] }

def firstSource (m : QueryModel) : Expr :=
  .source 0 ((m.sources.head?.map Source.entity).getD "")

/-- What a lambda sees: the projection, or the first source when nothing is selected. -/
def element (m : QueryModel) : Expr := m.projection.getD m.firstSource

/-- The nesting of the result columns. -/
def rowNesting (m : QueryModel) : Nesting := (m.projection.map Expr.nesting).getD .leaf

/-- All expressions: predicate, projection, then sort keys. -/
def exprs (m : QueryModel) : List Expr :=
  m.predicate.toList ++ m.projection.toList ++ m.ordering.map OrderKey.expr

end QueryModel

namespace Source

def toJson : Source → Json
  | root entity => .tagged "Root" (.object [("entity", .string entity)])
  | path parent names entity =>
    .tagged "Path" (.object
      [("parent", .int parent), ("path", .array (names.map .string)), ("entity", .string entity)])

def ofJson? (j : Json) : Option Source := do
  match ← j.variant? with
  | ("Root", some j) =>
    let part ← j.record? ["entity"]
    some (root (← (← part "entity").asString?))
  | ("Path", some j) =>
    let part ← j.record? ["parent", "path", "entity"]
    some (path (← (← part "parent").asCount?)
      (← (← (← part "path").asArray?).mapM Json.asString?) (← (← part "entity").asString?))
  | _ => none

end Source

def Direction.tags : List (String × Direction) := [("Asc", ascending), ("Desc", descending)]

namespace OrderKey

def toJson (key : OrderKey) : Json :=
  .object [("expr", key.expr.toJson), ("dir", Json.constantName Direction.tags key.direction)]

def ofJson? (j : Json) : Option OrderKey := do
  let part ← j.record? ["expr", "dir"]
  some ⟨← Expr.ofJson? (← part "expr"), ← Json.constant? Direction.tags (← part "dir")⟩

end OrderKey

namespace QueryModel

def toJson (m : QueryModel) : Json :=
  .object [("sources", .array (m.sources.map Source.toJson)),
    ("predicate", Json.ofOption Expr.toJson m.predicate),
    ("projection", Json.ofOption Expr.toJson m.projection),
    ("ordering", .array (m.ordering.map OrderKey.toJson)),
    ("distinct", .bool m.distinct), ("window", m.window.toJson), ("hints", m.hints.toJson)]

/-- Predicate and projection may be left out. -/
def ofJson? (j : Json) : Option QueryModel := do
  let part ← j.record?
    ["sources", "predicate", "projection", "ordering", "distinct", "window", "hints"]
  some {
    sources := ← (← (← part "sources").asArray?).mapM Source.ofJson?
    predicate := ← Json.optional? Expr.ofJson? (part "predicate")
    projection := ← Json.optional? Expr.ofJson? (part "projection")
    ordering := ← (← (← part "ordering").asArray?).mapM OrderKey.ofJson?
    distinct := ← (← part "distinct").asBool?
    window := ← Window.ofJson? (← part "window")
    hints := ← Hints.ofJson? (← part "hints") }

end QueryModel
end EntityQuery
