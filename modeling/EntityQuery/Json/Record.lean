import EntityQuery.Json.Basic

/-! Taking JSON documents apart: records, variants, numbers within bounds. -/
namespace EntityQuery.Json

def asString? : Json → Option String
  | string s => some s
  | _ => none

def asBool? : Json → Option Bool
  | bool b => some b
  | _ => none

def asInt? : Json → Option Int
  | int n => some n
  | _ => none

/-- A whole number up to 64 bits. -/
def asCount? (j : Json) : Option Nat := do
  let n ← j.asInt?
  if 0 ≤ n ∧ n < UInt64.size then some n.toNat else none

def asInt64? (j : Json) : Option Int64 := do
  let n ← j.asInt?
  if Int64.minValue.toInt ≤ n ∧ n ≤ Int64.maxValue.toInt then some (Int64.ofInt n) else none

/-- A whole number is read as the nearest float. -/
def asFloat? : Json → Option Float
  | float x => some x
  | int n => some (if n < 0 then -(Float.ofNat n.natAbs) else Float.ofNat n.natAbs)
  | _ => none

def asArray? : Json → Option (List Json)
  | array items => some items
  | _ => none

def asObject? : Json → Option (List (String × Json))
  | object fields => some fields
  | _ => none

/-- An absent field and `null` are both nothing. -/
def optional? {α : Type} (read : Json → Option α) : Option Json → Option (Option α)
  | none | some null => some none
  | some j => (read j).map some

/-- Look-up among the named fields of a record, which may also be an array in that order. No
named field stands twice; other fields are passed over. -/
def record? (names : List String) : Json → Option (String → Option Json)
  | object fields =>
    let known := fields.filter fun field => names.contains field.1
    let keys := known.map Prod.fst
    if keys.eraseDups.length = keys.length then some fun name => known.lookup name else none
  | array items =>
    if items.length = names.length then some fun name => (names.zip items).lookup name else none
  | _ => none

/-- A bare name, or an object of one field that names a variant. -/
def variant? : Json → Option (String × Option Json)
  | string tag => some (tag, none)
  | object [(tag, content)] => some (tag, some content)
  | _ => none

/-- A variant without content may be written with `null`. -/
def isUnit : Option Json → Bool
  | none | some null => true
  | _ => false

end EntityQuery.Json
