import EntityQuery.Pipeline.Feed
import EntityQuery.Proofs.Executor.Requests
import EntityQuery.Proofs.Pipeline.Lifecycle

/-! What feeds fetch. A feed asks an executor for pages of the query that it reads and for all
instances of the entity types that its functions stream, and for nothing else, however often it is
advanced. -/
namespace EntityQuery

variable {σ α : Type} {inv : σ → Prop} {allowed : FetchRequest → Prop}

/-- Any part of the rows of the query may be asked for. -/
def CompiledQuery.Permitted (allowed : FetchRequest → Prop) (q : CompiledQuery) : Prop :=
  ∀ window, allowed ⟨q.text, q.params, window⟩

/-- The invariant holds behind the executor of a run. -/
abbrev Behind (inv : σ → Prop) (session : Session σ) : Prop := inv session.executor

theorem Maintains.onExecutor {x : StateM σ α} {post : α → Prop} (h : Maintains inv x post) :
    Maintains (Behind inv) (Session.onExecutor x) post :=
  fun session hs => h session.executor hs

/-! ### Cursors and origins -/

namespace Cursor

variable {executor : Executor σ} (guards : executor.Guards allowed inv)
include guards

theorem maintains_start (q : CompiledQuery) (pageSize : Option PageSize) :
    Maintains inv (start executor q pageSize)
      fun | .ok c => c.query = q | .error _ => True := by
  refine guards.acquire.bind fun result _ => .pure ?_
  cases result with
  | ok handle => rfl
  | error e => trivial

theorem maintains_close (c : Cursor) :
    Maintains inv (c.close executor) fun closed => closed.query = c.query := by
  obtain ⟨q, pageSize, handle, received, buffer⟩ := c
  cases handle with
  | none => exact .pure rfl
  | some handle => exact (guards.release handle).bind fun _ _ => .pure rfl

theorem maintains_fill (c : Cursor) (handle : Handle) (permitted : c.query.Permitted allowed) :
    Maintains inv (c.fill executor handle) fun r => r.2.query = c.query := by
  have closing (d : Cursor) (same : d.query = c.query) (r : Except ExecutorError Unit) :
      Maintains inv (do return (r, ← d.close executor)) fun r => r.2.query = c.query :=
    (maintains_close guards d).bind fun _ hclosed => .pure (hclosed.trans same)
  unfold fill
  cases c.nextWindow? with
  | none => exact closing c rfl _
  | some window =>
    refine (guards.fetch handle _ (permitted window)).bind fun rows _ => ?_
    cases rows with
    | error e => exact closing c rfl _
    | ok rows =>
      dsimp only
      split
      · exact closing { c with received := c.received + .ofNat rows.length, buffer := rows } rfl _
      · exact .pure rfl

theorem maintains_next (c : Cursor) (permitted : c.query.Permitted allowed) :
    Maintains inv (c.next executor) fun r => r.2.query = c.query := by
  have popped (d : Cursor) : d.pop.2.query = d.query := by
    unfold pop
    split <;> rfl
  unfold next
  split
  · exact .pure (popped c)
  · exact .pure rfl
  · next handle _ _ =>
    refine (maintains_fill guards c handle permitted).bind fun r same => ?_
    obtain ⟨_ | _, d⟩ := r
    · exact .pure same
    · exact .pure ((popped d).trans same)

end Cursor

namespace Origin

/-- What rows are read of may be asked for. -/
def Permitted (allowed : FetchRequest → Prop) : Origin → Prop
  | rows cursor _ => cursor.query.Permitted allowed
  | items _ => True

variable {executor : Executor σ} (guards : executor.Guards allowed inv)
include guards

theorem maintains_next (origin : Origin) (permitted : origin.Permitted allowed) :
    Maintains (Behind inv) (origin.next executor) fun r => r.2.Permitted allowed := by
  unfold next
  cases origin with
  | rows cursor nesting =>
    refine (cursor.maintains_next guards permitted).onExecutor.bind fun r same => .pure ?_
    change r.2.query.Permitted allowed
    rw [same]
    exact permitted
  | items rest => cases rest <;> exact .pure trivial

theorem maintains_close (origin : Origin) (permitted : origin.Permitted allowed) :
    Maintains (Behind inv) (origin.close executor) (Permitted allowed) := by
  unfold close
  cases origin with
  | rows cursor nesting =>
    refine (cursor.maintains_close guards).onExecutor.bind fun closed same => .pure ?_
    change closed.query.Permitted allowed
    rw [same]
    exact permitted
  | items rest => exact .pure trivial

end Origin

variable [Libraries]

/-! ### Entities loaded on the way -/

/-- All instances of the entity types that the function streams may be asked for. -/
def ClientFunction.Permitted (allowed : FetchRequest → Prop) (dialect : Dialect)
    (f : ClientFunction) : Prop :=
  ∀ entity, f.Streams entity → ∀ q, EntityLoader.query dialect entity = .ok q → q.Permitted allowed

section Engine

variable {engine : Engine σ} (guards : engine.executor.Guards allowed inv)

namespace EntityLoader

include guards

theorem maintains_load {entity : String}
    (permitted : ∀ q, query engine.dialect entity = .ok q → q.Permitted allowed) :
    Maintains inv (load engine entity) fun _ => True := by
  unfold load
  cases hq : query engine.dialect entity with
  | error e => exact .pure trivial
  | ok q =>
    refine (guards.fetchOnce (permitted q hq q.window)).bind fun rows _ => ?_
    cases rows <;> exact .pure trivial

theorem entities_keeps {entity : String}
    (permitted : ∀ q, query engine.dialect entity = .ok q → q.Permitted allowed)
    (s : σ × EntityLoader) (hs : inv s.1) : inv (entities engine entity s).2.1 := by
  obtain ⟨s, loader⟩ := s
  unfold entities
  dsimp only
  cases loader.cache.find? entity with
  | some values => exact hs
  | none =>
    have kept := (maintains_load guards permitted s hs).2
    rcases hload : load engine entity s with ⟨r, s'⟩
    rw [hload] at kept
    cases r with
    | ok values => exact kept
    | error e => cases e <;> exact kept

/-- A call asks for no more than what its function streams. -/
theorem maintains_call (loader : EntityLoader) {f : ClientFunction}
    (permitted : f.Permitted allowed engine.dialect) (arguments : List Value) :
    Maintains (Behind inv) (loader.call engine f arguments) fun _ => True := by
  intro session hs
  -- the evaluation beside itself, from progress over a state that satisfies the invariant
  let Same (p q : Progress (σ × EntityLoader)) : Prop := p = q ∧ inv p.source.1
  have parallel : Evaluation.Parallel Same := by
    refine ⟨?_, ?_, ?_⟩
    · rintro p _ ⟨rfl, -⟩
      rfl
    · rintro p _ entry ⟨rfl, hp⟩
      exact ⟨rfl, hp⟩
    · rintro p _ entry ⟨rfl, hp⟩
      exact ⟨rfl, hp⟩
  have supplied (entity : String) (streams : f.Streams entity) : Evaluation.Matches Same Eq
      (Evaluation.entities (entities engine) entity)
      (Evaluation.entities (entities engine) entity) := by
    rintro p _ ⟨rfl, hp⟩
    rw [Evaluation.run_entities]
    exact ⟨Evaluation.sameOutcome_refl _, rfl,
      entities_keeps guards (permitted entity streams) p.source hp⟩
  let start : Progress (σ × EntityLoader) :=
    { calls := session.calls, source := (session.executor, loader) }
  have kept := (Evaluation.matches_evaluation parallel f supplied arguments start start
    ⟨rfl, hs⟩).2.2
  refine ⟨trivial, ?_⟩
  unfold call ClientFunction.call
  dsimp only
  rcases hrun : (f.evaluation (entities engine) arguments).run start with ⟨r, p⟩
  rw [hrun] at kept
  cases r with
  | ok v => exact kept
  | error e => cases e <;> exact kept

end EntityLoader

/-! ### Stages and feeds -/

/-- The function that a step calls. -/
def Step.function? : Step → Option ClientFunction
  | map f | filter f | flatMap f | sort f _ => some f
  | distinct | skip _ | limit _ => none

def Stage.function? : Stage → Option ClientFunction
  | map f _ | filter f _ | flatMap f _ _ _ | collecting f _ _ _ => some f
  | sorted _ | distinct _ | skip _ | limit _ => none

/-- What the stage calls may be called. -/
def Stage.Permitted (allowed : FetchRequest → Prop) (dialect : Dialect) (stage : Stage) : Prop :=
  ∀ f ∈ stage.function?, f.Permitted allowed dialect

omit [Libraries] in
theorem Step.function?_start (step : Step) : step.start.function? = step.function? := by
  cases step <;> rfl

namespace Stage

theorem Permitted.of_function? {dialect : Dialect} {stage stage' : Stage}
    (h : stage.Permitted allowed dialect)
    (same : stage'.function? = stage.function? ∨ stage'.function? = none) :
    stage'.Permitted allowed dialect := by
  intro f hf
  rcases same with same | none
  · exact h f (same ▸ hf)
  · rw [none] at hf
    cases hf

theorem Permitted.onFailure {dialect : Dialect} {stage : Stage}
    (h : stage.Permitted allowed dialect) (e : QueryError) :
    (stage.onFailure e).2.Permitted allowed dialect := by
  refine h.of_function? ?_
  cases stage <;> first | exact .inl rfl | exact .inr rfl

theorem Permitted.onEnd {dialect : Dialect} {stage : Stage} (h : stage.Permitted allowed dialect) :
    stage.onEnd.2.Permitted allowed dialect := by
  refine h.of_function? ?_
  cases stage <;> first | exact .inl rfl | exact .inr rfl

theorem Permitted.ready? {dialect : Dialect} {stage : Stage} (h : stage.Permitted allowed dialect)
    {r : Event × Stage} (ready : stage.ready? = some r) : r.2.Permitted allowed dialect := by
  refine h.of_function? (.inl ?_)
  unfold Stage.ready? at ready
  split at ready <;> cases ready <;> rfl

include guards

theorem maintains_onElement (v : Value) (stage : Stage)
    (permitted : stage.Permitted allowed engine.dialect) :
    Maintains (Behind inv) (stage.onElement engine v)
      fun r => r.2.Permitted allowed engine.dialect := by
  have same {stage' : Stage} (same : stage'.function? = stage.function?) :
      stage'.Permitted allowed engine.dialect := permitted.of_function? (.inl same)
  unfold onElement
  cases stage with
  | map f loader =>
    have called := EntityLoader.maintains_call guards loader (permitted f rfl) [v]
    exact called.bind fun _ _ => .pure (same rfl)
  | filter f loader =>
    have called := EntityLoader.maintains_call guards loader (permitted f rfl) [v]
    exact called.bind fun _ _ => .pure (same rfl)
  | flatMap f loader pending finished =>
    have called := EntityLoader.maintains_call guards loader (permitted f rfl) [v, .null]
    refine called.bind fun ⟨result, _⟩ _ => ?_
    dsimp only
    cases result.bind (pairs v) <;> exact .pure (same rfl)
  | collecting key direction loader keyed =>
    have called := EntityLoader.maintains_call guards loader (permitted key rfl) [v]
    refine called.bind fun ⟨result, _⟩ _ => ?_
    cases result with
    | ok k => exact .pure (same rfl)
    | error e => exact .pure (permitted.of_function? (.inr rfl))
  | sorted rest => exact .pure permitted
  | distinct seen =>
    dsimp only
    split <;> exact .pure (same rfl)
  | skip n => cases n <;> exact .pure (same rfl)
  | limit n => exact .pure (same rfl)

theorem maintains_receive (event : Event) (stage : Stage)
    (permitted : stage.Permitted allowed engine.dialect) :
    Maintains (Behind inv) (stage.receive engine event)
      fun r => r.2.Permitted allowed engine.dialect := by
  cases event with
  | item element =>
    cases element with
    | ok v => exact maintains_onElement guards v stage permitted
    | error e => exact .pure (permitted.onFailure e)
  | again => exact .pure permitted
  | done => exact .pure permitted.onEnd

end Stage

namespace Feed

/-- What the stages call may be called, and what they are fed with may be asked for. -/
structure Permitted (allowed : FetchRequest → Prop) (dialect : Dialect) (feed : Feed) : Prop where
  stages : ∀ stage ∈ feed.stages, stage.Permitted allowed dialect
  origin : feed.origin.Permitted allowed

theorem permitted_ofSteps {dialect : Dialect} {steps : List Step} {origin : Origin}
    (called : ∀ step ∈ steps, ∀ f ∈ step.function?, f.Permitted allowed dialect)
    (fed : origin.Permitted allowed) : (ofSteps steps origin).Permitted allowed dialect := by
  refine ⟨fun stage hstage => ?_, fed⟩
  obtain ⟨step, hstep, rfl⟩ := List.mem_map.1 (List.mem_reverse.1 hstage)
  intro f hf
  rw [Step.function?_start] at hf
  exact called step hstep f hf

include guards

/-- Stages ask only for what the origin and the functions of the stages may ask for, and hand on
stages and an origin of which the same is true. -/
theorem maintains_ask (stages : List Stage) (origin : Origin)
    (called : ∀ stage ∈ stages, stage.Permitted allowed engine.dialect)
    (fed : origin.Permitted allowed) :
    Maintains (Behind inv) (ask engine stages origin)
      fun r => Permitted allowed engine.dialect ⟨r.2.1, r.2.2⟩ := by
  induction stages generalizing origin with
  | nil =>
    exact (origin.maintains_next guards fed).bind fun r fed' =>
      .pure ⟨List.forall_mem_nil _, fed'⟩
  | cons stage before ih =>
    obtain ⟨first, others⟩ := List.forall_mem_cons.1 called
    unfold ask
    cases hready : stage.ready? with
    | some r =>
      obtain ⟨event, stage'⟩ := r
      exact .pure ⟨List.forall_mem_cons.2 ⟨first.ready? hready, others⟩, fed⟩
    | none =>
      refine (ih origin others fed).bind fun asked permitted => ?_
      obtain ⟨event, before', origin'⟩ := asked
      refine (stage.maintains_receive guards event first).bind fun received first' => ?_
      obtain ⟨event', stage'⟩ := received
      have stages' := List.forall_mem_cons.2 ⟨first', permitted.stages⟩
      dsimp only
      split
      · exact (origin'.maintains_close guards permitted.origin).bind fun closed fed' =>
          .pure ⟨stages', fed'⟩
      · exact .pure ⟨stages', permitted.origin⟩

theorem maintains_advance (feed : Feed) (permitted : feed.Permitted allowed engine.dialect) :
    Maintains (Behind inv) (feed.advance engine)
      fun r => r.2.Permitted allowed engine.dialect :=
  (maintains_ask guards feed.stages feed.origin permitted.stages permitted.origin).bind
    fun _ permitted' => .pure permitted'

theorem maintains_close (feed : Feed) (permitted : feed.Permitted allowed engine.dialect) :
    Maintains (Behind inv) (feed.close engine) fun _ => True :=
  (feed.origin.maintains_close guards permitted.origin).bind fun _ _ => .pure trivial

theorem maintains_nextWithin (steps : Nat) (feed : Feed)
    (permitted : feed.Permitted allowed engine.dialect) :
    Maintains (Behind inv) (nextWithin engine steps feed)
      fun r => r.2.Permitted allowed engine.dialect := by
  induction steps generalizing feed with
  | zero => exact .pure permitted
  | succ steps ih =>
    refine (maintains_advance guards feed permitted).bind fun ⟨event, feed'⟩ permitted' => ?_
    cases event with
    | item item => exact .pure permitted'
    | again => exact ih feed' permitted'
    | done => exact .pure permitted'

theorem maintains_pulls (n : Nat) (feed : Feed)
    (permitted : feed.Permitted allowed engine.dialect) :
    Maintains (Behind inv) (feed.pulls engine n)
      fun r => r.2.Permitted allowed engine.dialect := by
  induction n generalizing feed with
  | zero => exact .pure permitted
  | succ n ih =>
    refine (maintains_nextWithin guards engine.steps feed permitted).bind ?_
    intro ⟨_, feed'⟩ permitted'
    exact (ih feed' permitted').bind fun _ permitted'' => .pure permitted''

theorem maintains_collectWithin (read : Value → Except QueryError α) (steps : Nat)
    (taken : List α) (feed : Feed) (permitted : feed.Permitted allowed engine.dialect) :
    Maintains (Behind inv) (collectWithin engine read steps taken feed)
      fun r => r.2.Permitted allowed engine.dialect := by
  induction steps generalizing taken feed with
  | zero => exact .pure permitted
  | succ steps ih =>
    refine (maintains_advance guards feed permitted).bind fun ⟨event, feed'⟩ permitted' => ?_
    cases event with
    | item item =>
      dsimp only
      cases item.bind read with
      | ok a => exact ih (a :: taken) feed' permitted'
      | error e => exact .pure permitted'
    | again => exact ih taken feed' permitted'
    | done => exact .pure permitted'

theorem maintains_collect (read : Value → Except QueryError α) (feed : Feed)
    (permitted : feed.Permitted allowed engine.dialect) :
    Maintains (Behind inv) (feed.collect engine read) fun _ => True := by
  refine (maintains_collectWithin guards read engine.steps [] feed permitted).bind ?_
  intro ⟨_, feed'⟩ permitted'
  exact (maintains_close guards feed' permitted').bind fun _ _ => .pure trivial

end Feed

end Engine

end EntityQuery
