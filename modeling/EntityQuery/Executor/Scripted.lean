import EntityQuery.Executor.Basic

/-! An executor in memory. What it answers to each query text is scripted; it counts handles and
keeps a record of fetches. It may check the syntax of the texts, by whatever parser it is given. -/
namespace EntityQuery

/-- A fetch as the executor saw it. -/
structure FetchRecord where
  handle : Handle
  request : FetchRequest

/-- `log` is in reverse order of fetching. A failure is looked for before rows are. The syntax
check, if there is one, tells whether a text parses as one query; other texts are not answered. -/
structure Scripted where
  responses : Dictionary (List Row) := []
  failures : Dictionary ExecutorError := []
  opened : List Handle := []
  issued : Nat := 0
  acquired : Nat := 0
  released : Nat := 0
  log : List FetchRecord := []
  syntaxCheck : Option (String → Bool) := none

namespace Scripted

/-- Scripts the rows of a query. -/
def respond (s : Scripted) (query : String) (rows : List Row) : Scripted :=
  { s with responses := s.responses.insert query rows }

/-- Scripts a result of one column. -/
def respondValues (s : Scripted) (query : String) (values : List Value) : Scripted :=
  s.respond query (values.map fun v => [v])

/-- Makes a query fail. -/
def fail (s : Scripted) (query : String) (e : ExecutorError) : Scripted :=
  { s with failures := s.failures.insert query e }

/-- Refuses query text that does not parse. -/
def withSyntaxCheck (s : Scripted) (parses : String → Bool) : Scripted :=
  { s with syntaxCheck := some parses }

def openHandles (s : Scripted) : Nat := s.opened.length

/-- All fetches so far, in order. -/
def fetches (s : Scripted) : List FetchRecord := s.log.reverse

/-- The query texts fetched so far, each where it was first seen. -/
def queries (s : Scripted) : List String :=
  s.fetches.foldl
    (fun seen r => if seen.contains r.request.query then seen else seen ++ [r.request.query]) []

def acquire (s : Scripted) : Handle × Scripted :=
  let handle := s.issued + 1
  (handle, { s with
    issued := handle
    opened := handle :: s.opened
    acquired := s.acquired + 1 })

/-- The answer scripted for a request, without regard to handles. -/
def reply (s : Scripted) (request : FetchRequest) : Except ExecutorError (List Row) :=
  if s.syntaxCheck.any fun parses => !parses request.query then .error (.malformed request.query)
  else match s.failures.find? request.query with
    | some e => .error e
    | none =>
      match s.responses.find? request.query with
      | some rows => .ok (request.window.slice rows)
      | none => .error (.noResponse request.query)

/-- Nothing is recorded under a handle that is not open. -/
def fetch (s : Scripted) (handle : Handle) (request : FetchRequest) :
    Except ExecutorError (List Row) × Scripted :=
  if s.opened.contains handle then
    (s.reply request, { s with log := ⟨handle, request⟩ :: s.log })
  else (.error (.unknownHandle handle), s)

def release (s : Scripted) (handle : Handle) : Scripted :=
  if s.opened.contains handle then
    { s with opened := s.opened.erase handle, released := s.released + 1 }
  else s

def executor : Executor Scripted where
  acquire s := (.ok s.acquire.1, s.acquire.2)
  fetch handle request s := s.fetch handle request
  release handle s := ((), s.release handle)

end Scripted
end EntityQuery
