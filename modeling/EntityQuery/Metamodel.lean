import EntityQuery.Dictionary
import EntityQuery.Expr.Type
import EntityQuery.Json.Record

/-! Entity types and the kinds of their attributes. -/
namespace EntityQuery

inductive ScalarType where
  | boolean
  | numeric
  | string
deriving Repr, DecidableEq

/-- A reference leads to one entity, a collection to many. -/
inductive AttributeKind where
  | scalar (type : ScalarType)
  | reference (entity : String)
  | collection (entity : String)
deriving Repr, DecidableEq

namespace AttributeKind

/-- The type of an expression that reads the attribute. -/
def type : AttributeKind → ExprType
  | scalar .boolean => .boolean
  | scalar .numeric => .numeric
  | scalar .string => .string
  | reference entity => .entity entity
  | collection entity => .collection entity

def target? : AttributeKind → Option String
  | scalar _ => none
  | reference entity => some entity
  | collection entity => some entity

def scalarNames : List (String × ScalarType) :=
  [("boolean", .boolean), ("numeric", .numeric), ("string", .string)]

def toJson : AttributeKind → Json
  | scalar .boolean => .string "boolean"
  | scalar .numeric => .string "numeric"
  | scalar .string => .string "string"
  | reference entity => .tagged "reference" (.string entity)
  | collection entity => .tagged "collection" (.string entity)

/-- The name in a record that has one text under the given key. -/
def entityUnder? (key : String) (j : Json) : Option String := do
  (← (← j.record? [key]) key).asString?

/-- A scalar is a name; with both keys a record is a reference. -/
def ofJson? (j : Json) : Option AttributeKind :=
  (j.asString?.bind fun name => (scalarNames.lookup name).map scalar)
    <|> (entityUnder? "reference" j).map reference
    <|> (entityUnder? "collection" j).map collection

end AttributeKind

abbrev EntityType := Dictionary AttributeKind

namespace EntityType

def toJson (t : EntityType) : Json := .object (t.map fun (name, kind) => (name, kind.toJson))

def ofJson? (j : Json) : Option EntityType := do
  let entries ← (← j.asObject?).mapM fun (name, kind) =>
    (AttributeKind.ofJson? kind).map (name, ·)
  some (Dictionary.ofList entries)

end EntityType

abbrev Metamodel := Dictionary EntityType

/-- A letter or underscore, then letters, digits and underscores, all ASCII. -/
def isIdentifier (name : String) : Bool :=
  match name.toList with
  | [] => false
  | c :: cs => (c.isAlpha || c == '_') && cs.all fun c => c.isAlphanum || c == '_'

inductive MetamodelError where
  | entityName (name : String)
  | attributeName (entity name : String)
  | danglingReference (entity name target : String)
deriving Repr, DecidableEq

def MetamodelError.message : MetamodelError → String
  | entityName name => "invalid entity name: " ++ Text.quoted name
  | attributeName entity name => "invalid attribute name " ++ Text.quoted name ++ " on " ++ entity
  | danglingReference entity name target =>
    entity ++ "." ++ name ++ " refers to unknown entity " ++ target

namespace Metamodel

def ofJson? (j : Json) : Option Metamodel := do
  let entries ← (← j.asObject?).mapM fun (name, type) => (EntityType.ofJson? type).map (name, ·)
  some (Dictionary.ofList entries)

def toJson (m : Metamodel) : Json :=
  .object (m.map fun (name, type) => (name, EntityType.toJson type))

def attribute? (m : Metamodel) (entity name : String) : Option AttributeKind := do
  (← m.find? entity).find? name

def checkAttribute (m : Metamodel) (entity : String) (entry : String × AttributeKind) :
    Except MetamodelError Unit :=
  if !isIdentifier entry.1 then .error (.attributeName entity entry.1)
  else match entry.2.target? with
    | some target =>
      if m.has target then .ok () else .error (.danglingReference entity entry.1 target)
    | none => .ok ()

def checkEntity (m : Metamodel) (entry : String × EntityType) : Except MetamodelError Unit := do
  if !isIdentifier entry.1 then .error (.entityName entry.1)
  entry.2.forM (m.checkAttribute entry.1)

/-- Every name is an identifier and every relationship leads to a known entity type. -/
def validate (m : Metamodel) : Except MetamodelError Unit := m.forM m.checkEntity

end Metamodel
end EntityQuery
