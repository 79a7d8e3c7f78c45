import EntityQuery.Json.Basic

/-! Building the tables of a TOML document. How a table came about decides what may be added to it
later, so that no part of it is given in two places. -/
namespace EntityQuery.Toml

/-- A table stands on the way to one that a header names, or a header names it itself, or dotted
keys lead into it. -/
inductive Origin where
  | implied
  | header
  | dotted
deriving Repr, DecidableEq

/-- The last table of an array comes first. -/
inductive Node where
  | value (content : Json)
  | table (origin : Origin) (entries : List (String × Node))
  | tables (elements : List (List (String × Node)))

abbrev Entries := List (String × Node)

namespace Entries

/-- Changes the entry of a name, which is there. -/
def replace (entries : Entries) (name : String) (node : Node) : Entries :=
  entries.map fun entry => if entry.1 = name then (name, node) else entry

def append (entries : Entries) (name : String) (node : Node) : Entries := entries ++ [(name, node)]

/-- Gives a value to a dotted key. The table of a header cannot be entered from outside, and the
last key must be new; `isOpen` tells whether values may be added to the present table. -/
def assign (isOpen : Bool) (entries : Entries) : List String → Json → Option Entries
  | [], _ => none
  | [name], content =>
    if isOpen && (entries.lookup name).isNone then some (entries.append name (.value content))
    else none
  | name :: rest, content =>
    match entries.lookup name with
    | none => (assign true [] rest content).map fun sub => entries.append name (.table .dotted sub)
    | some (.table .dotted sub) =>
      (assign true sub rest content).map fun sub => entries.replace name (.table .dotted sub)
    | some (.table .implied sub) =>
      (assign false sub rest content).map fun sub => entries.replace name (.table .implied sub)
    | some (.tables (last :: earlier)) =>
      (assign false last rest content).map fun last =>
        entries.replace name (.tables (last :: earlier))
    | some _ => none

/-- Changes the table that a header's keys lead to; of an array it is the last element. -/
def within (change : Entries → Option Entries) : List String → Entries → Option Entries
  | [], entries => change entries
  | name :: rest, entries =>
    match entries.lookup name with
    | none => (within change rest []).map fun sub => entries.append name (.table .implied sub)
    | some (.table origin sub) =>
      (within change rest sub).map fun sub => entries.replace name (.table origin sub)
    | some (.tables (last :: earlier)) =>
      (within change rest last).map fun last => entries.replace name (.tables (last :: earlier))
    | some _ => none

/-- Opens the table that a header names, which may so far only be implied. -/
def openTable (name : String) (entries : Entries) : Option Entries :=
  match entries.lookup name with
  | none => some (entries.append name (.table .header []))
  | some (.table .implied sub) => some (entries.replace name (.table .header sub))
  | some _ => none

/-- Opens another element of an array of tables. -/
def openElement (name : String) (entries : Entries) : Option Entries :=
  match entries.lookup name with
  | none => some (entries.append name (.tables [[]]))
  | some (.tables elements) => some (entries.replace name (.tables ([] :: elements)))
  | some _ => none

end Entries

mutual

def Node.toJson : Node → Json
  | .value content => content
  | .table _ entries => .object (entriesToJson entries)
  | .tables elements => .array (elementsToJson elements).reverse

def entriesToJson : List (String × Node) → List (String × Json)
  | [] => []
  | (name, node) :: rest => (name, node.toJson) :: entriesToJson rest

def elementsToJson : List (List (String × Node)) → List Json
  | [] => []
  | entries :: rest => .object (entriesToJson entries) :: elementsToJson rest

end

end EntityQuery.Toml
