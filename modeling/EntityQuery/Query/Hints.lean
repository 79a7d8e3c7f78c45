import EntityQuery.Json.Record
import EntityQuery.Value.Basic

/-! Hints on how a query runs. -/
namespace EntityQuery

/-- Rows of one fetch. -/
structure PageSize where
  rows : UInt64
  positive : 0 < rows.toNat

namespace PageSize

def ofNat? (n : Nat) : Option PageSize :=
  if h : 0 < (UInt64.ofNat n).toNat ∧ n < UInt64.size then some ⟨.ofNat n, h.1⟩ else none

end PageSize

/-- `pageSize` splits a result into fetches; `strict` makes a clause that does not merge a failure,
where it would run on the client otherwise. -/
structure Hints where
  pageSize : Option PageSize := none
  strict : Bool := true

inductive HintProblem where
  | notPositive
  | notBoolean
  | unrecognized
  | runsClientSide
deriving Repr, DecidableEq

def HintProblem.reason : HintProblem → String
  | notPositive => "must be a positive integer"
  | notBoolean => "must be a boolean"
  | unrecognized => "unrecognized hint"
  | runsClientSide => "a clause already runs client-side"

structure HintError where
  hint : String
  problem : HintProblem
deriving Repr, DecidableEq

def HintError.message (e : HintError) : String :=
  "Invalid hint " ++ e.hint ++ ": " ++ e.problem.reason

namespace Hints

def pageSizeName : String := "automaticPageSize"

def strictName : String := "exceptionOnTranslationFail"

def pageSizeOf? (value : Value) : Option PageSize := do
  let n ← value.asInt?
  if 0 ≤ n.toInt then PageSize.ofNat? n.toInt.toNat else none

/-- Sets a hint by its name. -/
def set (hints : Hints) (name : String) (value : Value) : Except HintError Hints :=
  if name = pageSizeName then
    match pageSizeOf? value with
    | some size => .ok { hints with pageSize := some size }
    | none => .error ⟨name, .notPositive⟩
  else if name = strictName then
    match value.asBool? with
    | some strict => .ok { hints with strict }
    | none => .error ⟨name, .notBoolean⟩
  else .error ⟨name, .unrecognized⟩

def toJson (hints : Hints) : Json :=
  .object [(pageSizeName, Json.ofOption (fun p => .int p.rows.toNat) hints.pageSize),
    (strictName, .bool hints.strict)]

/-- A hint that is not named keeps its default. -/
def ofJson? (j : Json) : Option Hints := do
  let part ← j.record? [pageSizeName, strictName]
  let pageSize ← Json.optional? (fun j => j.asCount?.bind PageSize.ofNat?) (part pageSizeName)
  let strict ← match part strictName with
    | none => some true
    | some j => j.asBool?
  some { pageSize, strict }

end Hints
end EntityQuery
