import EntityQuery.Json.Basic
import EntityQuery.Number.Bits

/-! Documents in which floats are carried by the text of their bits. -/
namespace EntityQuery.Json

mutual

/-- Puts the text of its bits for every float. -/
def withBits : Json → Json
  | float x => string (Number.bitsText x)
  | array items => array (itemsWithBits items)
  | object fields => object (fieldsWithBits fields)
  | j => j

def itemsWithBits : List Json → List Json
  | [] => []
  | item :: items => item.withBits :: itemsWithBits items

def fieldsWithBits : List (String × Json) → List (String × Json)
  | [] => []
  | (key, value) :: fields => (key, value.withBits) :: fieldsWithBits fields

end

/-- The name under which a text of bits stands for a float. -/
def floatTag : String := "Float"

mutual

/-- Puts floats for the texts of bits under the float tag. -/
def ofBits : Json → Json
  | object [(tag, string s)] =>
    if tag = floatTag then object [(tag, ((Number.ofBitsText? s).map float).getD (string s))]
    else object [(tag, string s)]
  | array items => array (itemsOfBits items)
  | object fields => object (fieldsOfBits fields)
  | j => j

def itemsOfBits : List Json → List Json
  | [] => []
  | item :: items => item.ofBits :: itemsOfBits items

def fieldsOfBits : List (String × Json) → List (String × Json)
  | [] => []
  | (key, value) :: fields => (key, value.ofBits) :: fieldsOfBits fields

end

end EntityQuery.Json
