import EntityQuery.Metamodel
import EntityQuery.Pipeline.Basic
import EntityQuery.Settings.Environment
import EntityQuery.Toml.Document

/-! Settings: the dialect, the hints that pipelines start with, and the entity types. They are
written in TOML, where references to variables are expanded before anything else. -/
namespace EntityQuery

/-- A page size of zero is kept until the hints are made. -/
structure Settings where
  dialect : Dialect := .jpql
  pageSize : Option UInt64 := none
  strict : Bool := true
  entities : Metamodel := []

inductive SettingsError where
  | fileNotFound (path : String)
  | unreadable (path : String)
  | malformed
  | missingVariable (name : String)
  | metamodel (cause : MetamodelError)
  | pageSizeNotPositive
deriving Repr, DecidableEq

def SettingsError.message : SettingsError → String
  | fileNotFound path => "Config file not found: " ++ path
  | unreadable path => "Failed to read config file: " ++ path
  | malformed => "Failed to parse config file"
  | missingVariable name => "Missing environment variable: " ++ name
  | metamodel cause => "Invalid metamodel: " ++ cause.message
  | pageSizeNotPositive => "Invalid configuration: hints.automatic_page_size must be positive"

namespace Settings

/-- Look-up among the named parts of a table, which may also be an array in that order. -/
def parts? (names : List String) : Json → Option (String → Option Json)
  | .object fields => some fun name => fields.lookup name
  | .array items => some fun name => (names.zip items).lookup name
  | _ => none

/-- Reads a part if it is there. -/
def part? {α : Type} (part : Option Json) (absent : α) (read : Json → Option α) : Option α :=
  match part with
  | some j => read j
  | none => some absent

def dialectTags : List (String × Dialect) := [("jpql", .jpql), ("hql", .hql)]

def readDialect (s : Settings) (j : Json) : Option Settings := do
  let part ← parts? ["dialect"] j
  let dialect ← part? (part "dialect") s.dialect fun j =>
    j.asString?.bind fun name => dialectTags.lookup name
  some { s with dialect }

def readHints (s : Settings) (j : Json) : Option Settings := do
  let part ← parts? ["automatic_page_size", "exception_on_translation_fail"] j
  let pageSize ← part? (part "automatic_page_size") s.pageSize fun j =>
    j.asCount?.map fun n => some (.ofNat n)
  let strict ← part? (part "exception_on_translation_fail") s.strict Json.asBool?
  some { s with pageSize, strict }

def readEntities (s : Settings) (j : Json) : Option Settings := do
  some { s with entities := ← Metamodel.ofJson? j }

/-- Everything may be left out, and what is not known is passed over. -/
def ofJson? (j : Json) : Option Settings := do
  let part ← parts? [] j
  let s ← part? (part "translation") {} (readDialect {})
  let s ← part? (part "hints") s (readHints s)
  part? (part "entities") s (readEntities s)

def toJson (s : Settings) : Json :=
  .object [("translation", .object [("dialect", .string s.dialect.name)]),
    ("hints", .object [
      ("automatic_page_size", Json.ofOption (fun n => .int n.toNat) s.pageSize),
      ("exception_on_translation_fail", .bool s.strict)]),
    ("entities", Metamodel.toJson s.entities)]

/-- Reads settings from their text, once references are expanded, by a reader of documents. -/
def ofText (read? : String → Option Json) (env : Environment) (text : String) :
    Except SettingsError Settings := do
  let expanded ← (env.expand text).mapError .missingVariable
  match (read? expanded).bind ofJson? with
  | some s => .ok s
  | none => .error .malformed

def ofToml : Environment → String → Except SettingsError Settings := ofText Toml.read?

/-- The hints that pipelines start with. -/
def hintValues (s : Settings) : Except SettingsError Hints :=
  match s.pageSize with
  | none => .ok { pageSize := none, strict := s.strict }
  | some rows =>
    if positive : 0 < rows.toNat then .ok { pageSize := some ⟨rows, positive⟩, strict := s.strict }
    else .error .pageSizeNotPositive

/-- The entity types, if they are valid together. -/
def metamodel (s : Settings) : Except SettingsError Metamodel := do
  (Metamodel.validate s.entities).mapError .metamodel
  .ok s.entities

def provider (s : Settings) : Except SettingsError Provider := do
  let metamodel ← s.metamodel
  .ok { metamodel, dialect := s.dialect, hints := ← s.hintValues }

end Settings
end EntityQuery
