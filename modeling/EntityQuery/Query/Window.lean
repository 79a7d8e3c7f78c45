import EntityQuery.Json.Record

/-! Windows on the rows of a result. -/
namespace EntityQuery

/-- Rows to skip, then rows to keep; without a limit all the rest. -/
structure Window where
  skip : UInt64 := 0
  limit : Option UInt64 := none
deriving Repr, DecidableEq

namespace Window

def isUnbounded (w : Window) : Bool := w.skip == 0 && w.limit.isNone

/-- Drop `n` more rows from the front. The sum stops at the largest count. -/
def skipMore (w : Window) (n : UInt64) : Window where
  skip := .ofNatClamp (w.skip.toNat + n.toNat)
  limit := w.limit.map fun l => .ofNat (l.toNat - n.toNat)

/-- Keep at most `n` rows. -/
def limitTo (w : Window) (n : UInt64) : Window where
  skip := w.skip
  limit := some ((w.limit.map (min · n)).getD n)

/-- The rows from `offset` on, at most `length` of them, of the rows inside the window. -/
def page (w : Window) (offset length : UInt64) : Window := (w.skipMore offset).limitTo length

/-- The rows inside the window. -/
def slice {α : Type} (w : Window) (rows : List α) : List α :=
  let rest := rows.drop w.skip.toNat
  match w.limit with
  | none => rest
  | some n => rest.take n.toNat

def toJson (w : Window) : Json :=
  .object [("skip", .int w.skip.toNat), ("limit", Json.ofOption (fun n => .int n.toNat) w.limit)]

def ofJson? (j : Json) : Option Window := do
  let part ← j.record? ["skip", "limit"]
  let skip ← (← part "skip").asCount?
  let limit ← Json.optional? Json.asCount? (part "limit")
  some ⟨.ofNat skip, limit.map .ofNat⟩

end Window
end EntityQuery
