import EntityQuery.Value.Basic
import EntityQuery.Json.Record

/-! Values as JSON documents, each tagged with its kind. -/
namespace EntityQuery.Value

mutual

def toJson : Value → Json
  | null => .string "Null"
  | bool b => .tagged "Bool" (.bool b)
  | int n => .tagged "Int" (.int n.toInt)
  | float x => .tagged "Float" (.float x)
  | string s => .tagged "String" (.string s)
  | entity type attributes =>
    .tagged "Entity" (.object
      [("type_name", .string type), ("attributes", .object (entriesToJson attributes))])
  | list items => .tagged "List" (.array (itemsToJson items))
  | tuple items => .tagged "Tuple" (.array (itemsToJson items))

def itemsToJson : List Value → List Json
  | [] => []
  | item :: items => toJson item :: itemsToJson items

def entriesToJson : List (String × Value) → List (String × Json)
  | [] => []
  | (key, value) :: rest => (key, toJson value) :: entriesToJson rest

end

/-- The compact JSON text, which stands for the value where duplicates are looked for. -/
def key [Libraries] (v : Value) : String := v.toJson.compact

/-- Reads what `toJson` writes; each level of nesting takes a unit of fuel. -/
def readJson : Nat → Json → Option Value
  | 0, _ => none
  | fuel + 1, j => do
    let (tag, content) ← j.variant?
    match tag, content with
    | "Null", content => if Json.isUnit content then some null else none
    | "Bool", some j => j.asBool?.map bool
    | "Int", some j => j.asInt64?.map int
    | "Float", some j => j.asFloat?.map float
    | "String", some j => j.asString?.map string
    | "List", some j => do some (list (← (← j.asArray?).mapM (readJson fuel)))
    | "Tuple", some j => do some (tuple (← (← j.asArray?).mapM (readJson fuel)))
    | "Entity", some j =>
      let field ← j.record? ["type_name", "attributes"]
      let type ← (← field "type_name").asString?
      let attributes ← (← (← field "attributes").asObject?).mapM fun (key, j) =>
        (readJson fuel j).map (key, ·)
      some (entity type (Dictionary.ofList attributes))
    | _, _ => none

def ofJson? (j : Json) : Option Value := readJson j.depth j

end EntityQuery.Value
