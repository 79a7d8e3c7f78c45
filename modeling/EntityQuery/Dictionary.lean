/-! Finite maps from names, kept as entries in ascending order of the names. -/
namespace EntityQuery

/-- Entries in ascending order, each name once. -/
abbrev Dictionary (α : Type) := List (String × α)

namespace Dictionary

variable {α : Type}

/-- The new value replaces one of the same name. -/
def insert (name : String) (value : α) : Dictionary α → Dictionary α
  | [] => [(name, value)]
  | (key, old) :: rest =>
    if name < key then (name, value) :: (key, old) :: rest
    else if name = key then (name, value) :: rest
    else (key, old) :: insert name value rest

/-- Of several values for a name the last one stays. -/
def ofList (entries : List (String × α)) : Dictionary α :=
  entries.foldl (fun d entry => d.insert entry.1 entry.2) []

def find? (d : Dictionary α) (name : String) : Option α := d.lookup name

def has (d : Dictionary α) (name : String) : Bool := (d.find? name).isSome

def names (d : Dictionary α) : List String := d.map Prod.fst

def values (d : Dictionary α) : List α := d.map Prod.snd

end Dictionary
end EntityQuery
