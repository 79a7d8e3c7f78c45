import EntityQuery.Pipeline.EntityLoader
import EntityQuery.Query.Model
import EntityQuery.Value.Json
import EntityQuery.Value.Order

/-! Steps that run on the client, element by element. -/
namespace EntityQuery

inductive Step where
  | map (f : ClientFunction)
  | filter (f : ClientFunction)
  /-- Pairs each element with every item of the list that `f` gives. -/
  | flatMap (f : ClientFunction)
  | sort (key : ClientFunction) (direction : Direction)
  | distinct
  | skip (n : UInt64)
  | limit (n : UInt64)

/-- What one request to a stage brings: an element or a failure, nothing yet, or the end. -/
inductive Event where
  | item (element : Except QueryError Value)
  | again
  | done

/-- The order of two keys. Keys without an order are equal. -/
def Direction.order (direction : Direction) (a b : Value) : Ordering :=
  let order := (Value.compare a b).getD .eq
  match direction with
  | .ascending => order
  | .descending => order.swap

/-- The order of the keys that elements are put behind. -/
def Direction.orderKeys (direction : Direction) (x y : Value × Value) : Ordering :=
  direction.order x.1 y.1

/-- The elements sorted by their keys. -/
def Direction.sort [Libraries] (direction : Direction) (keyed : List (Value × Value)) :
    List Value :=
  (Libraries.sort direction.orderKeys keyed).map (·.2)

/-- A step that is under way. Those with functions hold the entities loaded for them. -/
inductive Stage where
  | map (f : ClientFunction) (loader : EntityLoader)
  | filter (f : ClientFunction) (loader : EntityLoader)
  /-- `pending` are pairs not yet handed on. -/
  | flatMap (f : ClientFunction) (loader : EntityLoader) (pending : List Value) (finished : Bool)
  /-- `keyed` are the elements so far behind their keys, last first. -/
  | collecting (key : ClientFunction) (direction : Direction) (loader : EntityLoader)
    (keyed : List (Value × Value))
  | sorted (rest : List Value)
  /-- `seen` are the keys of the elements so far. -/
  | distinct (seen : List String)
  | skip (remaining : Nat)
  | limit (remaining : Nat)

def Step.start : Step → Stage
  | map f => .map f {}
  | filter f => .filter f {}
  | flatMap f => .flatMap f {} [] false
  | sort key direction => .collecting key direction {} []
  | distinct => .distinct []
  | skip n => .skip n.toNat
  | limit n => .limit n.toNat

namespace Stage

variable [Libraries] {σ : Type} (engine : Engine σ)

/-- Whether the stage needs nothing more from what is before it. -/
def isDetached : Stage → Bool
  | flatMap _ _ _ finished => finished
  | sorted _ => true
  | _ => false

/-- What a stage brings without asking for more. -/
def ready? : Stage → Option (Event × Stage)
  | flatMap f loader (v :: pending) finished =>
    some (.item (.ok v), flatMap f loader pending finished)
  | flatMap f loader [] true => some (.done, flatMap f loader [] true)
  | sorted (v :: rest) => some (.item (.ok v), sorted rest)
  | sorted [] => some (.done, sorted [])
  | limit 0 => some (.done, limit 0)
  | _ => none

def mismatch (operation : String) (v : Value) : QueryError :=
  .evaluation (.typeMismatch operation v.kind)

/-- The pairs of an element with the items of a list. -/
def pairs (v joined : Value) : Except QueryError (List Value) :=
  match joined with
  | .list items => .ok (items.map fun item => .tuple [v, item])
  | other => .error (mismatch "join" other)

/-- What a stage makes of an element. -/
def onElement (v : Value) : Stage → StateM (Session σ) (Event × Stage)
  | map f loader => do
    let (result, loader) ← loader.call engine f [v]
    return (.item result, map f loader)
  | filter f loader => do
    let (result, loader) ← loader.call engine f [v]
    let event := match result with
      | .ok (.bool true) => .item (.ok v)
      | .ok (.bool false) => .again
      | .ok other => .item (.error (mismatch "where" other))
      | .error e => .item (.error e)
    return (event, filter f loader)
  | flatMap f loader pending finished => do
    let (result, loader) ← loader.call engine f [v, .null]
    match result.bind (pairs v) with
    | .ok items => return (.again, flatMap f loader (pending ++ items) finished)
    | .error e => return (.item (.error e), flatMap f loader pending finished)
  | collecting key direction loader keyed => do
    let (result, loader) ← loader.call engine key [v]
    match result with
    | .ok k => return (.again, collecting key direction loader ((k, v) :: keyed))
    | .error e => return (.item (.error e), sorted [])
  | sorted rest => return (.again, sorted rest)
  | distinct seen =>
    if seen.contains v.key then return (.again, distinct seen)
    else return (.item (.ok v), distinct (v.key :: seen))
  | skip 0 => return (.item (.ok v), skip 0)
  | skip (n + 1) => return (.again, skip n)
  | limit n => return (.item (.ok v), limit (n - 1))

/-- What a stage makes of a failure before it. A sort gives up; the others hand it on. -/
def onFailure (e : QueryError) : Stage → Event × Stage
  | collecting _ _ _ _ => (.item (.error e), sorted [])
  | stage => (.item (.error e), stage)

/-- What a stage makes of the end of what is before it. -/
def onEnd : Stage → Event × Stage
  | flatMap f loader pending _ => (.again, flatMap f loader pending true)
  | collecting _ direction _ keyed => (.again, sorted (direction.sort keyed.reverse))
  | stage => (.done, stage)

def receive (event : Event) (stage : Stage) : StateM (Session σ) (Event × Stage) :=
  match event with
  | .item (.ok v) => stage.onElement engine v
  | .item (.error e) => return stage.onFailure e
  | .again => return (.again, stage)
  | .done => return stage.onEnd

end Stage
end EntityQuery
