import EntityQuery.Value.Basic
import EntityQuery.Number.Layout
import EntityQuery.Text.Quoted

/-! How a value is shown: plainly, or inspected with its kind, as attributes of an entity are. -/
namespace EntityQuery.Value

/-- Shown floats have no exponent, and whole ones no point. -/
def shownLayout : Number.Layout where
  tie := .up
  positional _ := true
  wholePoint := false
  plusSign := false

/-- Inspected floats are positional from `0.0001` to below `1e16`. -/
def inspectedLayout : Number.Layout where
  tie := .up
  positional lead := -4 ≤ lead && lead < 16
  wholePoint := true
  plusSign := false

def showFloat (x : Float) : String := String.ofList (shownLayout.write x)

def showInt (n : Int64) : String := String.ofList (Number.signed n.toInt)

def showBool : Bool → String
  | true => "true"
  | false => "false"

def commaSeparated (parts : List String) : String := String.intercalate ", " parts

mutual

/-- The value with its kind, as in `Int(1)`. -/
def inspect : Value → String
  | null => "Null"
  | bool b => "Bool(" ++ showBool b ++ ")"
  | int n => "Int(" ++ showInt n ++ ")"
  | float x => "Float(" ++ String.ofList (inspectedLayout.write x) ++ ")"
  | string s => "String(" ++ Text.quoted s ++ ")"
  | entity type attributes =>
    "Entity(Entity \x7b type_name: " ++ Text.quoted type ++ ", attributes: \x7b"
      ++ commaSeparated (inspectEntries attributes) ++ "\x7d \x7d)"
  | list items => "List([" ++ commaSeparated (inspectItems items) ++ "])"
  | tuple items => "Tuple([" ++ commaSeparated (inspectItems items) ++ "])"

def inspectItems : List Value → List String
  | [] => []
  | item :: items => inspect item :: inspectItems items

def inspectEntries : List (String × Value) → List String
  | [] => []
  | (key, value) :: rest => (Text.quoted key ++ ": " ++ inspect value) :: inspectEntries rest

end

mutual

/-- The value alone; an entity shows its attributes inspected. -/
def toText : Value → String
  | null => "null"
  | bool b => showBool b
  | int n => showInt n
  | float x => showFloat x
  | string s => s
  | entity type attributes =>
    type ++ "\x7b" ++ commaSeparated (inspectEntries attributes) ++ "\x7d"
  | list items => "(" ++ commaSeparated (itemTexts items) ++ ")"
  | tuple items => "(" ++ commaSeparated (itemTexts items) ++ ")"

def itemTexts : List Value → List String
  | [] => []
  | item :: items => toText item :: itemTexts items

end

instance : ToString Value := ⟨toText⟩

end EntityQuery.Value
