import EntityQuery.Proofs.Executor.HandleLog
import EntityQuery.Proofs.Pipeline.Lifecycle
import EntityQuery.Proofs.Pipeline.Serving

/-! Handles of pipelines. Cursors, loads of entities and feeds run beside their logged forms, which
tells which handles are held at each point: those of the cursor that a feed reads, and for the time
of a load one more. In the end none is held. -/
namespace EntityQuery

variable {σ α : Type}

def Engine.logged (engine : Engine σ) : Engine (σ × List HandleEvent) where
  executor := engine.executor.logged
  dialect := engine.dialect
  steps := engine.steps

@[simp] theorem Engine.logged_dialect (engine : Engine σ) : engine.logged.dialect = engine.dialect :=
  rfl

/-- A run through the logged executor beside one through the executor itself. -/
def KeepsIn (held : List Handle) (t : Session (σ × List HandleEvent)) (s : Session σ) : Prop :=
  Keeps held t.executor s.executor ∧ t.calls = s.calls

variable {executor : Executor σ} {engine : Engine σ} {held : List Handle} {handle : Handle}

theorem Follows.onExecutor {x : StateM (σ × List HandleEvent) α} {y : StateM σ α}
    {before : List Handle} {after : α → List Handle} (h : Follows Keeps before x y after) :
    Follows KeepsIn before (Session.onExecutor x) (Session.onExecutor y) after := by
  intro t u related
  obtain ⟨same, kept⟩ := h _ _ related.1
  exact ⟨same, kept, related.2⟩

/-! ### Cursors and origins -/

namespace Cursor

def handles (c : Cursor) : List Handle := c.handle.toList

@[simp] theorem handles_pop (c : Cursor) : c.pop.2.handles = c.handles := by
  unfold pop
  split <;> rfl

theorem follows_start (q : CompiledQuery) (pageSize : Option PageSize) :
    Follows Keeps [] (start executor.logged q pageSize) (start executor q pageSize)
      fun | .ok c => c.handles | .error _ => [] := by
  refine follows_acquire.bind fun result => .pure ?_
  cases result <;> rfl

/-- What is closed holds nothing. -/
theorem follows_close (c : Cursor) {after : Cursor → List Handle}
    (h : ∀ closed : Cursor, closed.handles = [] → after closed = []) :
    Follows Keeps c.handles (c.close executor.logged) (c.close executor) after := by
  obtain ⟨q, pageSize, handle, received, buffer⟩ := c
  cases handle with
  | none => exact .pure (h _ rfl)
  | some handle =>
    refine (follows_release List.mem_cons_self).bind fun _ => .pure ?_
    rw [h _ rfl]
    exact (List.erase_cons_head handle []).symm

theorem follows_fill {c : Cursor} (holds : c.handle = some handle) :
    Follows Keeps [handle] (c.fill executor.logged handle) (c.fill executor handle)
      fun r => r.2.handles := by
  have one {d : Cursor} (hd : d.handle = some handle) : d.handles = [handle] := by
    rw [handles, hd]
    rfl
  have closed (d : Cursor) (hd : d.handle = some handle) (r : Except ExecutorError Unit) :
      Follows Keeps [handle] (do return (r, ← d.close executor.logged))
        (do return (r, ← d.close executor)) fun r => r.2.handles := by
    have closing : Follows Keeps d.handles (d.close executor.logged) (d.close executor) handles :=
      d.follows_close fun _ none => none
    rw [one hd] at closing
    exact closing.bind fun _ => .pure rfl
  unfold fill
  cases c.nextWindow? with
  | none => exact closed c holds _
  | some window =>
    refine (follows_fetch List.mem_cons_self _).bind fun rows => ?_
    cases rows with
    | error e => exact closed c holds _
    | ok rows =>
      dsimp only
      split
      · exact closed { c with received := c.received + .ofNat rows.length, buffer := rows } holds _
      · exact .pure (one holds)

theorem follows_next (c : Cursor) :
    Follows Keeps c.handles (c.next executor.logged) (c.next executor) fun r => r.2.handles := by
  obtain ⟨q, pageSize, handle, received, buffer⟩ := c
  cases buffer with
  | cons row rest => exact .pure rfl
  | nil =>
    cases handle with
    | none => exact .pure rfl
    | some handle =>
      refine (follows_fill rfl).bind fun r => ?_
      obtain ⟨_ | _, d⟩ := r
      · exact .pure rfl
      · exact .pure d.handles_pop

end Cursor

namespace Origin

def handles : Origin → List Handle
  | rows cursor _ => cursor.handles
  | items _ => []

theorem follows_next (origin : Origin) :
    Follows KeepsIn origin.handles (origin.next executor.logged) (origin.next executor)
      fun r => r.2.handles := by
  unfold next
  cases origin with
  | rows cursor nesting => exact cursor.follows_next.onExecutor.bind fun _ => .pure rfl
  | items rest => cases rest <;> exact .pure rfl

theorem follows_close (origin : Origin) {after : Origin → List Handle}
    (h : ∀ closed : Origin, closed.handles = [] → after closed = []) :
    Follows KeepsIn origin.handles (origin.close executor.logged) (origin.close executor)
      after := by
  unfold close
  cases origin with
  | rows cursor nesting =>
    have closing : Follows Keeps cursor.handles (cursor.close executor.logged)
        (cursor.close executor) fun closed => after (rows closed nesting) :=
      cursor.follows_close fun closed none => h (rows closed nesting) none
    exact closing.onExecutor.bind fun _ => .pure rfl
  | items rest => exact .pure (h _ rfl)

end Origin

variable [Libraries]

/-! ### Entities loaded on the way -/

namespace EntityLoader

theorem follows_load (engine : Engine σ) (entity : String) :
    Follows Keeps held (load engine.logged entity) (load engine entity) fun _ => held := by
  unfold load
  rw [Engine.logged_dialect]
  cases query engine.dialect entity with
  | error e => exact .pure rfl
  | ok q =>
    refine (follows_fetchOnce _).bind fun rows => ?_
    cases rows <;> exact .pure rfl

/-- Progress of a lambda that loads through a logged executor, beside that through the executor. -/
def KeepsAll (held : List Handle)
    (p : Progress ((σ × List HandleEvent) × EntityLoader))
    (q : Progress (σ × EntityLoader)) : Prop :=
  p.memo = q.memo ∧ p.calls = q.calls ∧ Keeps held p.source.1 q.source.1 ∧
    p.source.2 = q.source.2

omit [Libraries] in
theorem parallel_keepsAll : Evaluation.Parallel (KeepsAll (σ := σ) held) where
  memo _ _ h := h.1
  logged _ _ entry h := ⟨h.1, congrArg (entry :: ·) h.2.1, h.2.2⟩
  remembered _ _ entry h := ⟨congrArg (entry :: ·) h.1, h.2⟩

/-- Entities are supplied alike, from the cache or by a load. -/
theorem entities_logged (engine : Engine σ) (entity : String) {s : σ} {log : List HandleEvent}
    {loader : EntityLoader} (hlog : HandleEvent.held? log = some held) :
    ∃ log', HandleEvent.held? log' = some held ∧
      entities engine.logged entity ((s, log), loader) =
        ((entities engine entity (s, loader)).1,
          ((entities engine entity (s, loader)).2.1, log'),
          (entities engine entity (s, loader)).2.2) := by
  unfold entities
  dsimp only
  cases loader.cache.find? entity with
  | some values => exact ⟨log, hlog, rfl⟩
  | none =>
    have loaded := follows_load engine entity (s, log) s ⟨rfl, hlog⟩
    rcases hx : load engine.logged entity (s, log) with ⟨r, s', log'⟩
    rcases hy : load engine entity s with ⟨r', s''⟩
    rw [hx, hy] at loaded
    obtain ⟨rfl, rfl, hlog'⟩ := loaded
    refine ⟨log', hlog', ?_⟩
    cases r with
    | ok values => rfl
    | error e => cases e <;> rfl

theorem matches_logged (engine : Engine σ) (entity : String) :
    Evaluation.Matches (KeepsAll held) Eq
      (Evaluation.entities (entities engine.logged) entity)
      (Evaluation.entities (entities engine) entity) := by
  rintro ⟨memo, calls, ⟨s, log⟩, loader⟩ ⟨_, _, _, _⟩ ⟨rfl, rfl, ⟨rfl, hlog⟩, rfl⟩
  obtain ⟨log', hlog', same⟩ := entities_logged engine entity hlog
  rw [Evaluation.run_entities, Evaluation.run_entities, same]
  exact ⟨Evaluation.sameOutcome_refl _, rfl, rfl, ⟨rfl, hlog'⟩, rfl⟩

/-- A function runs as it does, whatever handles its loads take and give back. -/
theorem follows_call (loader : EntityLoader) (f : ClientFunction) (arguments : List Value) :
    Follows KeepsIn held (loader.call engine.logged f arguments) (loader.call engine f arguments)
      fun _ => held := by
  rintro ⟨⟨s, log⟩, calls⟩ ⟨_, _⟩ ⟨⟨rfl, hlog⟩, rfl⟩
  have same := Evaluation.matches_evaluation parallel_keepsAll f
    (fun entity _ => matches_logged engine entity) arguments
    { calls, source := ((s, log), loader) } { calls, source := (s, loader) }
    ⟨rfl, rfl, ⟨rfl, hlog⟩, rfl⟩
  unfold call ClientFunction.call
  dsimp only
  rcases hx : (f.evaluation (entities engine.logged) arguments).run
    { calls, source := ((s, log), loader) } with ⟨r, memo, calls', ⟨s', log'⟩, loader'⟩
  rcases hy : (f.evaluation (entities engine) arguments).run
    { calls, source := (s, loader) } with ⟨r', _, _, _, _⟩
  rw [hx, hy] at same
  obtain ⟨outcome, rfl, rfl, ⟨rfl, hlog'⟩, rfl⟩ := same
  obtain rfl := outcome.eq
  cases r with
  | ok v => exact ⟨rfl, ⟨rfl, hlog'⟩, rfl⟩
  | error e => cases e <;> exact ⟨rfl, ⟨rfl, hlog'⟩, rfl⟩

end EntityLoader

/-! ### Stages and feeds -/

/-- Whatever a stage is handed, it holds as many handles afterwards as before. -/
theorem Stage.follows_onElement (v : Value) (stage : Stage) :
    Follows KeepsIn held (stage.onElement engine.logged v) (stage.onElement engine v)
      fun _ => held := by
  unfold onElement
  cases stage with
  | map f loader => exact (loader.follows_call f [v]).bind fun _ => .pure rfl
  | filter f loader => exact (loader.follows_call f [v]).bind fun _ => .pure rfl
  | flatMap f loader pending finished =>
    refine (loader.follows_call f [v, .null]).bind fun ⟨result, _⟩ => ?_
    dsimp only
    cases result.bind (pairs v) <;> exact .pure rfl
  | collecting key direction loader keyed =>
    refine (loader.follows_call key [v]).bind fun ⟨result, _⟩ => ?_
    cases result <;> exact .pure rfl
  | sorted rest => exact .pure rfl
  | distinct seen =>
    dsimp only
    split <;> exact .pure rfl
  | skip n => cases n <;> exact .pure rfl
  | limit n => exact .pure rfl

theorem Stage.follows_receive (event : Event) (stage : Stage) :
    Follows KeepsIn held (stage.receive engine.logged event) (stage.receive engine event)
      fun _ => held := by
  cases event with
  | item element =>
    cases element with
    | ok v => exact stage.follows_onElement v
    | error e => exact .pure rfl
  | again => exact .pure rfl
  | done => exact .pure rfl

namespace Feed

/-- The handles held while stages are asked are those of the origin. -/
theorem follows_ask (stages : List Stage) (origin : Origin) :
    Follows KeepsIn origin.handles (ask engine.logged stages origin) (ask engine stages origin)
      fun r => r.2.2.handles := by
  induction stages generalizing origin with
  | nil => exact origin.follows_next.bind fun _ => .pure rfl
  | cons stage before ih =>
    unfold ask
    cases stage.ready? with
    | some ready => exact .pure rfl
    | none =>
      refine (ih origin).bind fun asked => ?_
      obtain ⟨event, before, origin⟩ := asked
      refine (stage.follows_receive event).bind fun received => ?_
      obtain ⟨event, stage⟩ := received
      dsimp only
      -- a stage that needs nothing more has the cursor behind it closed early
      cases stage.isDetached with
      | true => exact (origin.follows_close fun _ none => none).bind fun _ => .pure rfl
      | false => exact .pure rfl

def handles (feed : Feed) : List Handle := feed.origin.handles

theorem follows_advance (feed : Feed) :
    Follows KeepsIn feed.handles (feed.advance engine.logged) (feed.advance engine)
      fun r => r.2.handles :=
  (follows_ask feed.stages feed.origin).bind fun _ => .pure rfl

omit [Libraries] in
theorem follows_close (feed : Feed) :
    Follows KeepsIn feed.handles (feed.close engine.logged) (feed.close engine) fun _ => [] :=
  (feed.origin.follows_close fun _ _ => rfl).bind fun _ => .pure rfl

theorem follows_nextWithin (steps : Nat) (feed : Feed) :
    Follows KeepsIn feed.handles (nextWithin engine.logged steps feed)
      (nextWithin engine steps feed) fun r => r.2.handles := by
  induction steps generalizing feed with
  | zero => exact .pure rfl
  | succ steps ih =>
    refine feed.follows_advance.bind fun ⟨event, feed⟩ => ?_
    cases event with
    | item item => exact .pure rfl
    | again => exact ih feed
    | done => exact .pure rfl

theorem follows_pulls (n : Nat) (feed : Feed) :
    Follows KeepsIn feed.handles (feed.pulls engine.logged n) (feed.pulls engine n)
      fun r => r.2.handles := by
  induction n generalizing feed with
  | zero => exact .pure rfl
  | succ n ih =>
    exact (follows_nextWithin engine.steps feed).bind fun ⟨_, feed⟩ =>
      (ih feed).bind fun _ => .pure rfl

theorem follows_collectWithin (read : Value → Except QueryError α) (steps : Nat) (taken : List α)
    (feed : Feed) :
    Follows KeepsIn feed.handles (collectWithin engine.logged read steps taken feed)
      (collectWithin engine read steps taken feed) fun r => r.2.handles := by
  induction steps generalizing taken feed with
  | zero => exact .pure rfl
  | succ steps ih =>
    refine feed.follows_advance.bind fun ⟨event, feed⟩ => ?_
    cases event with
    | item item =>
      dsimp only
      cases item.bind read with
      | ok a => exact ih (a :: taken) feed
      | error e => exact .pure rfl
    | again => exact ih taken feed
    | done => exact .pure rfl

theorem follows_collect (read : Value → Except QueryError α) (feed : Feed) :
    Follows KeepsIn feed.handles (feed.collect engine.logged read) (feed.collect engine read)
      fun _ => [] :=
  (follows_collectWithin read engine.steps [] feed).bind fun ⟨_, feed⟩ =>
    feed.follows_close.bind fun _ => .pure rfl

end Feed

/-! ### Terminal operations -/

namespace Pipeline

variable (p : Pipeline)

omit [Libraries] in
theorem engine_logged : p.engine executor.logged = (p.engine executor).logged := by
  simp only [engine, Engine.logged]

theorem follows_feed :
    Follows KeepsIn [] (p.feed executor.logged) (p.feed executor)
      fun | .ok feed => feed.handles | .error _ => [] := by
  unfold feed
  cases p.compile with
  | error e => exact .pure rfl
  | ok q =>
    refine (Cursor.follows_start q p.model.hints.pageSize).onExecutor.bind fun result => ?_
    cases result <;> exact .pure rfl

theorem follows_collectAs (read : Reader α) :
    Follows KeepsIn [] (p.collectAs executor.logged read) (p.collectAs executor read)
      fun _ => [] := by
  refine p.follows_feed.bind fun result => ?_
  rw [engine_logged]
  cases result with
  | error e => exact .pure rfl
  | ok feed => exact feed.follows_collect _

theorem follows_toList :
    Follows KeepsIn [] (p.toList executor.logged) (p.toList executor) fun _ => [] :=
  p.follows_collectAs Reader.value

theorem follows_fetchSingle (m : QueryModel) :
    Follows KeepsIn held (p.fetchSingle executor.logged m) (p.fetchSingle executor m)
      fun _ => held := by
  unfold fetchSingle
  cases m.compile p.dialect with
  | error e => exact .pure rfl
  | ok q =>
    refine (follows_fetchOnce _).onExecutor.bind fun rows => ?_
    cases rows <;> exact .pure rfl

theorem follows_mapValues (f : ClientFunction) (loader : EntityLoader) (vs : List Value) :
    Follows KeepsIn held (mapValues engine.logged f loader vs) (mapValues engine f loader vs)
      fun _ => held := by
  induction vs generalizing loader with
  | nil => exact .pure rfl
  | cons v vs ih =>
    refine (loader.follows_call f [v]).bind fun ⟨result, loader⟩ => ?_
    cases result with
    | error e => exact .pure rfl
    | ok w => exact (ih loader).bind fun _ => .pure rfl

theorem follows_foldElements (kind : Aggregate) (f : Option Lambda) :
    Follows KeepsIn [] (p.foldElements executor.logged kind f) (p.foldElements executor kind f)
      fun _ => [] := by
  refine p.follows_toList.bind fun elements => ?_
  cases elements with
  | error e => exact .pure rfl
  | ok elements =>
    cases f with
    | none => exact .pure rfl
    | some f =>
      dsimp only
      rw [engine_logged]
      cases f.client with
      | error e => exact .pure rfl
      | ok run => exact (follows_mapValues run {} elements).bind fun _ => .pure rfl

theorem follows_aggregate (kind : Aggregate) (f : Option Lambda) :
    Follows KeepsIn [] (p.aggregate executor.logged kind f) (p.aggregate executor kind f)
      fun _ => [] := by
  unfold aggregate
  cases p.failure with
  | some e => exact .pure rfl
  | none =>
    dsimp only
    split
    · exact p.follows_foldElements kind f
    · cases p.aggregateModel kind f with
      | ok m => exact p.follows_fetchSingle m
      | error e =>
        dsimp only
        split
        · exact .pure rfl
        · exact p.follows_foldElements kind f

theorem Terminal.follows_run (executor : Executor σ) (t : Terminal α) :
    Follows KeepsIn [] (t.run p executor.logged) (t.run p executor) fun _ => [] := by
  cases t with
  | compile => exact .pure rfl
  | text => exact .pure rfl
  | toList => exact p.follows_toList
  | collectAs read => exact p.follows_collectAs read
  | onlyValue => exact p.follows_toList.bind fun _ => .pure rfl
  | count => exact (p.follows_aggregate .count none).bind fun _ => .pure rfl
  | aggregate kind f => exact p.follows_aggregate kind (some f)
  | pulls n =>
    refine p.follows_feed.bind fun result => ?_
    rw [engine_logged]
    cases result with
    | error e => exact .pure rfl
    | ok feed =>
      exact (feed.follows_pulls n).bind fun ⟨_, feed⟩ => feed.follows_close.bind fun _ => .pure rfl

/-- Whatever the executor does, at the end of a terminal operation each handle that was acquired has
been given back once, and none was used that was not held. The log is all that sets the run apart
from one without. -/
theorem handles_balanced (executor : Executor σ) (t : Terminal α) (session : Session σ) :
    ∃ events, HandleEvent.Balanced events ∧
      t.run p executor.logged ⟨(session.executor, []), session.calls⟩ =
        ((t.run p executor session).1,
          ⟨((t.run p executor session).2.executor, events),
            (t.run p executor session).2.calls⟩) := by
  obtain ⟨same, ⟨state, kept⟩, calls⟩ :=
    t.follows_run p executor ⟨(session.executor, []), session.calls⟩ session
      ⟨⟨rfl, rfl⟩, rfl⟩
  rcases hx : t.run p executor.logged ⟨(session.executor, []), session.calls⟩ with
    ⟨answer, ⟨s, events⟩, calls'⟩
  rw [hx] at same state kept calls
  refine ⟨events, HandleEvent.balanced_of_held? kept, ?_⟩
  rw [← same, ← calls, ← show s = _ from state]

end Pipeline
end EntityQuery
