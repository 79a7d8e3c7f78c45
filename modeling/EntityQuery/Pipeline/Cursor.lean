import EntityQuery.Executor.Basic
import EntityQuery.Query.Compiled

/-! Cursors. Without a page size one fetch brings the whole window; with one, pages are fetched as
the rows before them are used up. The handle goes back after the last page, after a failure, or
when the cursor is closed. -/
namespace EntityQuery

/-- `handle` is there until it is given back; `received` counts the rows of the window so far, from
zero again after the largest count, and `buffer` holds those not yet handed on. -/
structure Cursor where
  query : CompiledQuery
  pageSize : Option PageSize
  handle : Option Handle
  received : UInt64 := 0
  buffer : List Row := []

namespace Cursor

variable {σ : Type} (executor : Executor σ)

/-- Takes a handle. Nothing is fetched yet. -/
def start (query : CompiledQuery) (pageSize : Option PageSize) :
    StateM σ (Except ExecutorError Cursor) := do
  return (← executor.acquire).map fun handle => { query, pageSize, handle := some handle }

/-- Gives the handle back, if it is still held. -/
def close (c : Cursor) : StateM σ Cursor := do
  match c.handle with
  | some handle => executor.release handle
  | none => pure ()
  return { c with handle := none }

/-- The window of the next fetch; none when the limit is reached. -/
def nextWindow? (c : Cursor) : Option Window :=
  if c.query.window.limit.any (· ≤ c.received) then none
  else match c.pageSize with
    | some size => some (c.query.window.page c.received size.rows)
    | none => some c.query.window

/-- Whether a fetch of `count` rows was the last one. -/
def isLast (c : Cursor) (count : Nat) : Bool := c.pageSize.all fun size => count < size.rows.toNat

/-- Fetches the next page into an empty buffer. -/
def fill (c : Cursor) (handle : Handle) : StateM σ (Except ExecutorError Unit × Cursor) := do
  match c.nextWindow? with
  | none => return (.ok (), ← c.close executor)
  | some window =>
    match ← executor.fetch handle ⟨c.query.text, c.query.params, window⟩ with
    | .error e => return (.error e, ← c.close executor)
    | .ok rows =>
      let filled := { c with received := c.received + .ofNat rows.length, buffer := rows }
      if c.isLast rows.length then return (.ok (), ← filled.close executor)
      else return (.ok (), filled)

/-- The first row of the buffer, if there is one. -/
def pop (c : Cursor) : Option (Except ExecutorError Row) × Cursor :=
  match c.buffer with
  | row :: rest => (some (.ok row), { c with buffer := rest })
  | [] => (none, c)

/-- The next row; none at the end. A page that is not the last has a row at least, so one fetch is
enough. -/
def next (c : Cursor) : StateM σ (Option (Except ExecutorError Row) × Cursor) := do
  match c.buffer, c.handle with
  | _ :: _, _ => return c.pop
  | [], none => return (none, c)
  | [], some handle =>
    match ← c.fill executor handle with
    | (.error e, c) => return (some (.error e), c)
    | (.ok (), c) => return c.pop

end Cursor
end EntityQuery
