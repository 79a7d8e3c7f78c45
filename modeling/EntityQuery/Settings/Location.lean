import EntityQuery.Settings.Basic

/-! Where settings are looked for. -/
namespace EntityQuery

/-- What a path leads to. -/
inductive FileEntry where
  | missing
  | directory
  | file (content : String)
deriving Repr, DecidableEq

/-- A file system as it can be read. -/
abbrev FileSystem := String → FileEntry

namespace FileSystem

/-- The steps of a path. Empty ones and points stay in place. -/
def steps (path : String) : List String :=
  (path.splitOn "/").filter fun step => step ≠ "" ∧ step ≠ "."

/-- A file system of the given files, each with its path, and the directories they lie in. -/
def ofFiles (files : List (String × String)) : FileSystem := fun path =>
  let here := steps path
  match files.find? fun file => steps file.1 = here with
  | some (_, content) => if path.endsWith "/" then .missing else .file content
  | none =>
    let leads := files.any fun file => here.isPrefixOf (steps file.1)
    if path ≠ "" ∧ (here = [] ∨ leads) then .directory else .missing

end FileSystem

namespace Settings

def ofFile (files : FileSystem) (env : Environment) (path : String) :
    Except SettingsError Settings :=
  match files path with
  | .missing => .error (.fileNotFound path)
  | .directory => .error (.unreadable path)
  | .file content => ofToml env content

/-- The variable that names the settings file. -/
def pathVariable : String := "QUERYSTREAM_CONFIG"

/-- The files that are tried when no variable names one: the local one, then the user's, if there is
a directory for those. -/
def candidates (configHome : Option String) : List String :=
  "querystream.toml" :: (configHome.map fun home => home ++ "/querystream/config.toml").toList

/-- Without any file everything has its default. -/
def load (files : FileSystem) (env : Environment) (configHome : Option String) :
    Except SettingsError Settings :=
  match env pathVariable with
  | .text path => ofFile files env path
  | _ =>
    match (candidates configHome).find? fun path => files path ≠ .missing with
    | some path => ofFile files env path
    | none => .ok {}

end Settings
end EntityQuery
