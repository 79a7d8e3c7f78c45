import EntityQuery.Toml.Number
import EntityQuery.Toml.Table
import EntityQuery.Toml.Text

/-! Reading TOML documents. Dates and times are not read. -/
namespace EntityQuery.Toml

def isScalarChar (c : Char) : Bool := c.isAlphanum || c == '+' || c == '-' || c == '_' || c == '.'

def scanScalar (cs : List Char) : Option (Json × List Char) :=
  (scalar? (cs.takeWhile isScalarChar)).map (·, cs.dropWhile isScalarChar)

mutual

def scanValue : Nat → List Char → Option (Json × List Char)
  | 0, _ => none
  | _ + 1, [] => none
  | fuel + 1, c :: rest =>
    if c == '"' || c == '\'' then (scanString (c :: rest)).map fun (s, rest) => (.string s, rest)
    else if c == '[' then (scanItems fuel rest).map fun (items, rest) => (.array items, rest)
    else if c == '\x7b' then scanInline fuel rest
    else scanScalar (c :: rest)

/-- The items of an array up to its end; lines may end between them. -/
def scanItems : Nat → List Char → Option (List Json × List Char)
  | 0, _ => none
  | fuel + 1, cs => do
    match ← skipLines false cs with
    | ']' :: rest => some ([], rest)
    | cs =>
      let (item, rest) ← scanValue fuel cs
      match ← skipLines false rest with
      | ',' :: rest =>
        let (items, rest) ← scanItems fuel rest
        some (item :: items, rest)
      | ']' :: rest => some ([item], rest)
      | _ => none

/-- A table on one line, after its opening brace. -/
def scanInline : Nat → List Char → Option (Json × List Char)
  | 0, _ => none
  | fuel + 1, cs =>
    match skipBlanks cs with
    | '\x7d' :: rest => some (.object [], rest)
    | cs => scanPairs fuel [] cs

def scanPairs : Nat → Entries → List Char → Option (Json × List Char)
  | 0, _, _ => none
  | fuel + 1, entries, cs => do
    let (path, content, rest) ← scanPair fuel cs
    let entries ← entries.assign true path content
    match skipBlanks rest with
    | ',' :: rest => scanPairs fuel entries rest
    | '\x7d' :: rest => some (.object (entriesToJson entries), rest)
    | _ => none

/-- A dotted key and its value. -/
def scanPair : Nat → List Char → Option (List String × Json × List Char)
  | 0, _ => none
  | fuel + 1, cs => do
    match ← scanPath cs with
    | (path, '=' :: rest) =>
      let (content, rest) ← scanValue fuel (skipBlanks rest)
      some (path, content, rest)
    | _ => none

end

/-- The tables read so far, and the path of the one that is open. -/
structure Progress where
  root : Entries := []
  opened : List String := []

/-- Opens the last key of a header's path. -/
def Progress.openPath (p : Progress) (change : String → Entries → Option Entries)
    (path : List String) : Option Progress := do
  let root ← Entries.within (change (← path.getLast?)) path.dropLast p.root
  some { root, opened := path }

/-- Reads a header or a pair at the start of a line. -/
def readLine (p : Progress) (cs : List Char) : Option (Progress × List Char) := do
  match cs with
  | '[' :: '[' :: rest =>
    match ← scanPath rest with
    | (path, ']' :: ']' :: rest) => (p.openPath Entries.openElement path).map (·, rest)
    | _ => none
  | '[' :: rest =>
    match ← scanPath rest with
    | (path, ']' :: rest) => (p.openPath Entries.openTable path).map (·, rest)
    | _ => none
  | cs =>
    let (path, content, rest) ← scanPair (2 * cs.length + 2) cs
    let root ← Entries.within (fun entries => entries.assign true path content) p.opened p.root
    some ({ p with root }, rest)

/-- Every line takes a character at least. -/
def readLines : Nat → Progress → List Char → Option Progress
  | 0, _, _ => none
  | fuel + 1, p, cs => do
    match ← skipLines false cs with
    | [] => some p
    | cs =>
      let (p, rest) ← readLine p cs
      let rest := skipBlanks rest
      if atLineEnd rest then readLines fuel p rest else none

/-- A byte order mark at the start is no part of the document. -/
def skipMark : List Char → List Char
  | '\ufeff' :: cs => cs
  | cs => cs

/-- The document as an object, if it is well formed. -/
def read? (text : String) : Option Json := do
  let p ← readLines (text.length + 1) {} (skipMark text.toList)
  some (.object (entriesToJson p.root))

end EntityQuery.Toml
