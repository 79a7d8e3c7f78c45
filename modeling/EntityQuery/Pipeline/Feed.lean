import EntityQuery.Pipeline.Cursor
import EntityQuery.Pipeline.Step

/-! Feeds: elements that pass through stages on their way out, one at a time. -/
namespace EntityQuery

/-- Where elements come from: rows of a query, or a list that is at hand. -/
inductive Origin where
  | rows (cursor : Cursor) (nesting : Nesting)
  | items (rest : List (Except QueryError Value))

namespace Origin

variable {σ : Type} (executor : Executor σ)

def next : Origin → StateM (Session σ) (Event × Origin)
  | rows cursor nesting => do
    let (row, cursor) ← Session.onExecutor (cursor.next executor)
    let event := match row with
      | some row => .item ((row.mapError .executor).bind nesting.assemble)
      | none => .done
    return (event, rows cursor nesting)
  | items (item :: rest) => return (.item item, items rest)
  | items [] => return (.done, items [])

def close : Origin → StateM (Session σ) Origin
  | rows cursor nesting =>
    return rows (← Session.onExecutor (cursor.close executor)) nesting
  | items rest => return items rest

end Origin

/-- The first stage of the list is the last one that an element passes. -/
structure Feed where
  stages : List Stage
  origin : Origin

namespace Feed

variable [Libraries] {σ : Type} (engine : Engine σ)

/-- A feed whose elements take the given steps in order. -/
def ofSteps (steps : List Step) (origin : Origin) : Feed := ⟨(steps.map Step.start).reverse, origin⟩

/-- Asks the stages for an event; at most one element leaves the origin. What is before a detached
stage is closed. -/
def ask : List Stage → Origin → StateM (Session σ) (Event × List Stage × Origin)
  | [], origin => do
    let (event, origin) ← origin.next engine.executor
    return (event, [], origin)
  | stage :: before, origin =>
    match stage.ready? with
    | some (event, stage) => return (event, stage :: before, origin)
    | none => do
      let (event, before, origin) ← ask before origin
      let (event, stage) ← stage.receive engine event
      let origin ← if stage.isDetached then origin.close engine.executor else pure origin
      return (event, stage :: before, origin)

def advance (feed : Feed) : StateM (Session σ) (Event × Feed) := do
  let (event, stages, origin) ← ask engine feed.stages feed.origin
  return (event, ⟨stages, origin⟩)

def close (feed : Feed) : StateM (Session σ) Feed := do
  return { feed with origin := ← feed.origin.close engine.executor }

/-- Advances until there is an element, a failure or the end. -/
def nextWithin : Nat → Feed → StateM (Session σ) (Option (Except QueryError Value) × Feed)
  | 0, feed => return (some (.error .outOfSteps), feed)
  | steps + 1, feed => do
    match ← feed.advance engine with
    | (.item item, feed) => return (some item, feed)
    | (.again, feed) => nextWithin steps feed
    | (.done, feed) => return (none, feed)

def next (feed : Feed) : StateM (Session σ) (Option (Except QueryError Value) × Feed) :=
  nextWithin engine engine.steps feed

/-- Advances up to the end or the first failure, reading every element on the way; `taken` are the
elements so far, last first. -/
def collectWithin {α : Type} (read : Value → Except QueryError α) :
    Nat → List α → Feed → StateM (Session σ) (Except QueryError (List α) × Feed)
  | 0, _, feed => return (.error .outOfSteps, feed)
  | steps + 1, taken, feed => do
    match ← feed.advance engine with
    | (.item item, feed) =>
      match item.bind read with
      | .ok a => collectWithin read steps (a :: taken) feed
      | .error e => return (.error e, feed)
    | (.again, feed) => collectWithin read steps taken feed
    | (.done, feed) => return (.ok taken.reverse, feed)

/-- All elements of a feed, which is closed afterwards. -/
def collect {α : Type} (read : Value → Except QueryError α) (feed : Feed) :
    StateM (Session σ) (Except QueryError (List α)) := do
  let (result, feed) ← collectWithin engine read engine.steps [] feed
  let _ ← feed.close engine
  return result

end Feed
end EntityQuery
