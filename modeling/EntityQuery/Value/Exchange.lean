import EntityQuery.Json.Bits
import EntityQuery.Json.Record
import EntityQuery.Value.Basic

/-! Values in exchange with other programs. Kinds that JSON has are written as themselves, the
others under a tag, and floats by their bits, so that every value comes back as it was. -/
namespace EntityQuery.Value

mutual

def toPlain : Value → Json
  | null => .null
  | bool b => .bool b
  | int n => .int n.toInt
  | float x => .tagged Json.floatTag (.string (Number.bitsText x))
  | string s => .string s
  | entity type attributes =>
    .tagged "Entity" (.array [.string type, .object (attributesToPlain attributes)])
  | list items => .tagged "List" (.array (itemsToPlain items))
  | tuple items => .tagged "Tuple" (.array (itemsToPlain items))

def itemsToPlain : List Value → List Json
  | [] => []
  | item :: items => item.toPlain :: itemsToPlain items

def attributesToPlain : List (String × Value) → List (String × Json)
  | [] => []
  | (name, value) :: rest => (name, value.toPlain) :: attributesToPlain rest

end

/-- Reads what `toPlain` writes; each level of nesting takes a unit of fuel. -/
def readPlain : Nat → Json → Option Value
  | 0, _ => none
  | _ + 1, .null => some null
  | _ + 1, .bool b => some (bool b)
  | _ + 1, .int n => (Json.int n).asInt64?.map int
  | _ + 1, .string s => some (string s)
  | fuel + 1, j => do
    match ← j.variant? with
    | ("Float", some j) => (j.asString?.bind Number.ofBitsText?).map float
    | ("List", some (.array items)) => (items.mapM (readPlain fuel)).map list
    | ("Tuple", some (.array items)) => (items.mapM (readPlain fuel)).map tuple
    | ("Entity", some (.array [.string type, .object fields])) =>
      let attributes ← fields.mapM fun (name, j) => (readPlain fuel j).map (name, ·)
      some (entity type (Dictionary.ofList attributes))
    | _ => none

def ofPlain? (j : Json) : Option Value := readPlain j.depth j

end EntityQuery.Value
