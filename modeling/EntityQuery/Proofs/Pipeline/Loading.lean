import EntityQuery.Pipeline.EntityLoader
import EntityQuery.Proofs.Dictionary
import EntityQuery.Proofs.Executor.Replies
import EntityQuery.Proofs.Failure

/-! Uses of a loader. Beside what a loader supplies stands what the executor answered on the way: a
type that is not in the cache is loaded by a single request, and the load fails with the executor's
error exactly if the executor answered with one. -/
namespace EntityQuery

variable [Libraries] {σ : Type}

def Engine.replying (engine : Engine σ) : Engine (σ × List Reply) where
  executor := engine.executor.replying
  dialect := engine.dialect
  steps := engine.steps

omit [Libraries] in
theorem Engine.replying_executor (engine : Engine σ) :
    engine.replying.executor = engine.executor.replying := rfl

namespace EntityLoader

/-! ### Loads with the answers of the executor -/

/-- What a load brings: the query of the entity type is compiled and run under a handle of its own,
and the rows are assembled. -/
inductive Loads (dialect : Dialect) (entity : String) :
    List Reply → Except QueryError (List Value) → Prop
  | unqueried {e : QueryError} (refused : query dialect entity = .error e) :
    Loads dialect entity [] (.error e)
  | failed {q : CompiledQuery} {replies : List Reply} {e : ExecutorError}
    (compiled : query dialect entity = .ok q)
    (answers : Answers ⟨q.text, q.params, q.window⟩ replies (.error e)) :
    Loads dialect entity replies (.error (.executor e))
  | fetched {q : CompiledQuery} {replies : List Reply} {rows : List Row}
    (compiled : query dialect entity = .ok q)
    (answers : Answers ⟨q.text, q.params, q.window⟩ replies (.ok rows)) :
    Loads dialect entity replies (rows.mapM q.nesting.assemble)

/-- No error of the executor comes of compiling a query or of assembling rows. -/
theorem query_ne_executor {dialect : Dialect} {entity : String} {e : ExecutorError} :
    query dialect entity ≠ .error (.executor e) := by
  rw [query]
  cases (QueryModel.root entity).compile dialect <;> exact nofun

omit [Libraries] in
theorem assemble_ne_executor (nesting : Nesting) (rows : List Row) {e : ExecutorError} :
    rows.mapM nesting.assemble ≠ .error (.executor e) := by
  intro failed
  obtain ⟨_, row, _, _, spoiled, _⟩ := mapM_error_iff.1 failed
  rw [Nesting.assemble] at spoiled
  split at spoiled <;> cases spoiled

/-- A load fails with the error that the executor answered, if there is one. -/
theorem Loads.failed_iff {dialect : Dialect} {entity : String} {replies : List Reply}
    {outcome : Except QueryError (List Value)} (h : Loads dialect entity replies outcome)
    (e : ExecutorError) :
    replies.findSome? Reply.error? = some e ↔ outcome = .error (.executor e) := by
  cases h with
  | unqueried refused =>
    refine iff_of_false nofun fun same => ?_
    obtain rfl := Except.error.inj same
    exact query_ne_executor refused
  | failed _ answers => exact (answers.failed_iff e).trans (by simp)
  | fetched _ answers =>
    refine iff_of_false (fun found => ?_) (assemble_ne_executor _ _)
    cases (answers.failed_iff e).1 found

theorem load_of_query {engine : Engine σ} {entity : String} {q : CompiledQuery}
    (compiled : query engine.dialect entity = .ok q) (s : σ) :
    load engine entity s =
      let (rows, s) := engine.executor.fetchOnce ⟨q.text, q.params, q.window⟩ s
      (match rows with
        | .error e => .error (.executor e)
        | .ok rows => rows.mapM q.nesting.assemble, s) := by
  rw [load, compiled]
  simp only [Bind.bind, StateT.bind]
  rcases engine.executor.fetchOnce ⟨q.text, q.params, q.window⟩ s with ⟨_ | _, s'⟩ <;> rfl

theorem load_replying (engine : Engine σ) (entity : String) (s : σ) (log : List Reply) :
    ∃ replies, load engine.replying entity (s, log) =
        ((load engine entity s).1, (load engine entity s).2, log ++ replies) ∧
      Loads engine.dialect entity replies (load engine entity s).1 := by
  cases compiled : query engine.dialect entity with
  | error e =>
    have failed {τ : Type} (engine' : Engine τ) (same : engine'.dialect = engine.dialect) (t : τ) :
        load engine' entity t = (.error e, t) := by
      rw [load, same, compiled]
      rfl
    rw [failed engine rfl, failed engine.replying rfl]
    exact ⟨[], by rw [List.append_nil], .unqueried compiled⟩
  | ok q =>
    obtain ⟨replies, logged, answers⟩ :=
      engine.executor.fetchOnce_replying ⟨q.text, q.params, q.window⟩ s log
    have compiled' : query engine.replying.dialect entity = .ok q := compiled
    rw [load_of_query compiled, load_of_query compiled', Engine.replying_executor, logged]
    refine ⟨replies, rfl, ?_⟩
    rcases fetched : engine.executor.fetchOnce ⟨q.text, q.params, q.window⟩ s with ⟨rows, s'⟩
    rw [fetched] at answers
    cases rows with
    | error e => exact .failed compiled answers
    | ok rows => exact .fetched compiled answers

end EntityLoader

/-! ### Uses of a loader -/

/-- The instances of an entity type are asked for: what the executor answered on the way, and what
came of it. -/
structure Use where
  entity : String
  replies : List Reply
  answer : Except EvalError (List Value)

namespace Use

/-- The error with which the executor answered. -/
def failure? (u : Use) : Option ExecutorError := u.replies.findSome? Reply.error?

/-- After a use that found its entity type, later ones find the same without the executor. -/
def Settles (earlier later : Use) : Prop :=
  ∀ values, earlier.entity = later.entity → earlier.answer = .ok values →
    later.replies = [] ∧ later.answer = .ok values

/-- The entity type was loaded for the use. -/
def IsLoad (dialect : Dialect) (u : Use) : Prop :=
  ∃ outcome, EntityLoader.Loads dialect u.entity u.replies outcome ∧
    u.answer = outcome.mapError fun e => .entitySource e.message

/-- The use found, without the executor, what one of these uses loaded. -/
def Recalls (dialect : Dialect) (uses : List Use) (u : Use) : Prop :=
  u.replies = [] ∧ ∃ values, u.answer = .ok values ∧
    ∃ source ∈ uses, source.IsLoad dialect ∧ source.entity = u.entity ∧ source.answer = .ok values

theorem Recalls.append {dialect : Dialect} {uses : List Use} {u : Use}
    (h : u.Recalls dialect uses) (more : List Use) : u.Recalls dialect (uses ++ more) := by
  obtain ⟨unasked, values, answer, source, mem, loaded⟩ := h
  exact ⟨unasked, values, answer, source, List.mem_append_left _ mem, loaded⟩

/-- Uses one after another load what they ask for or recall it, and what was found is recalled. -/
structure Cached (dialect : Dialect) (uses : List Use) : Prop where
  settled : uses.Pairwise Settles
  origin : ∀ u ∈ uses, u.IsLoad dialect ∨ u.Recalls dialect uses

end Use

namespace EntityLoader

/-- What a loader makes of a use. -/
inductive Supplies (dialect : Dialect) (loader : EntityLoader) : Use → EntityLoader → Prop
  | cached {entity : String} {values : List Value}
    (found : loader.cache.find? entity = some values) :
    Supplies dialect loader ⟨entity, [], .ok values⟩ loader
  | loaded {entity : String} {replies : List Reply} {values : List Value}
    (new : loader.cache.find? entity = none) (loads : Loads dialect entity replies (.ok values)) :
    Supplies dialect loader ⟨entity, replies, .ok values⟩
      { loader with cache := loader.cache.insert entity values }
  | failed {entity : String} {replies : List Reply} {e : ExecutorError}
    (new : loader.cache.find? entity = none)
    (loads : Loads dialect entity replies (.error (.executor e))) :
    Supplies dialect loader ⟨entity, replies, .error (.entitySource e.message)⟩
      { loader with failure := e }
  | spoiled {entity : String} {replies : List Reply} {e : QueryError}
    (new : loader.cache.find? entity = none) (loads : Loads dialect entity replies (.error e))
    (other : ∀ cause, e ≠ .executor cause) :
    Supplies dialect loader ⟨entity, replies, .error (.entitySource e.message)⟩ loader

namespace Supplies

variable {dialect : Dialect} {loader loader' : EntityLoader} {u : Use} {name : String}
  {values : List Value}

/-- What is cached is not asked for. -/
theorem settled (h : Supplies dialect loader u loader')
    (found : loader.cache.find? u.entity = some values) :
    u.replies = [] ∧ u.answer = .ok values := by
  cases h with
  | cached found' => exact ⟨rfl, congrArg _ (Option.some.inj (found'.symm.trans found))⟩
  | loaded new _ | failed new _ | spoiled new _ _ => cases new.symm.trans found

/-- What is not cached is loaded. -/
theorem isLoad (h : Supplies dialect loader u loader')
    (new : loader.cache.find? u.entity = none) : u.IsLoad dialect := by
  cases h with
  | cached found => cases new.symm.trans found
  | loaded _ loads | failed _ loads | spoiled _ loads _ => exact ⟨_, loads, rfl⟩

theorem find?_iff (h : Supplies dialect loader u loader') :
    loader'.cache.find? name = some values ↔
      loader.cache.find? name = some values ∨ u.entity = name ∧ u.answer = .ok values := by
  cases h with
  | cached found =>
    refine ⟨.inl, fun h => h.elim id ?_⟩
    rintro ⟨rfl, answer⟩
    exact found.trans (congrArg some (Except.ok.inj answer))
  | @loaded entity replies found new loads =>
    rw [Dictionary.find?_insert]
    by_cases same : name = entity
    · simp [same, new]
    · simp [same, Ne.symm same]
  | failed new loads | spoiled new loads _ => simp

theorem failure (h : Supplies dialect loader u loader') (idle : loader.failure = none) :
    loader'.failure = u.failure? := by
  have quiet {replies : List Reply} {entity : String} {outcome : Except QueryError (List Value)}
      (loads : Loads dialect entity replies outcome)
      (other : ∀ cause, outcome ≠ .error (.executor cause)) :
      replies.findSome? Reply.error? = none :=
    Option.eq_none_iff_forall_ne_some.2 fun e found => other e ((loads.failed_iff e).1 found)
  cases h with
  | cached _ => exact idle
  | loaded _ loads => exact idle.trans (quiet loads nofun).symm
  | failed _ loads => exact ((loads.failed_iff _).2 rfl).symm
  | spoiled _ loads other =>
    exact idle.trans (quiet loads fun cause same => other cause (Except.error.inj same)).symm

theorem reason (h : Supplies dialect loader u loader') {e : ExecutorError}
    (failed : u.failure? = some e) : ∃ reason, u.answer = .error (.entitySource reason) := by
  cases h with
  | cached _ => cases failed
  | loaded _ loads => cases (loads.failed_iff e).1 failed
  | failed _ _ | spoiled _ _ _ => exact ⟨_, rfl⟩

end Supplies

/-- Supplies what the loader does, and takes down the uses. -/
def watched (engine : Engine σ) : EntitySource ((σ × EntityLoader) × List Use) :=
  fun entity ((s, loader), uses) =>
    let (answer, (s, replies), loader) := entities engine.replying entity ((s, []), loader)
    (answer, (s, loader), uses ++ [⟨entity, replies, answer⟩])

theorem entities_spoiled {engine : Engine σ} {entity : String} {loader : EntityLoader} {s s' : σ}
    {e : QueryError} (new : loader.cache.find? entity = none)
    (failed : load engine entity s = (.error e, s')) (other : ∀ cause, e ≠ .executor cause) :
    entities engine entity (s, loader) = (.error (.entitySource e.message), s', loader) := by
  cases e with
  | executor cause => exact absurd rfl (other cause)
  | _ => simp only [entities, new, failed]

theorem supplies_watched (engine : Engine σ) (entity : String) (s : σ) (loader : EntityLoader)
    (uses : List Use) :
    ∃ u s' loader', entities engine entity (s, loader) = (u.answer, s', loader') ∧
      watched engine entity ((s, loader), uses) = (u.answer, (s', loader'), uses ++ [u]) ∧
      Supplies engine.dialect loader u loader' := by
  cases cached : loader.cache.find? entity with
  | some values =>
    refine ⟨⟨entity, [], .ok values⟩, s, loader, ?_, ?_, .cached cached⟩
    · simp only [entities, cached]
    · simp only [watched, entities, cached]
  | none =>
    obtain ⟨replies, logged, loads⟩ := load_replying engine entity s []
    rcases loaded : load engine entity s with ⟨answer, s'⟩
    rw [loaded] at logged loads
    rw [List.nil_append] at logged
    cases answer with
    | ok values =>
      refine ⟨⟨entity, replies, .ok values⟩, s', _, ?_, ?_, .loaded cached loads⟩
      · simp only [entities, cached, loaded]
      · simp only [watched, entities, cached, logged]
    | error e =>
      by_cases other : ∀ cause, e ≠ .executor cause
      · refine ⟨⟨entity, replies, .error (.entitySource e.message)⟩, s', loader, ?_, ?_,
          .spoiled cached loads other⟩
        · exact entities_spoiled cached loaded other
        · simp only [watched, entities_spoiled cached logged other]
      · obtain ⟨cause, rfl⟩ := not_forall_not.1 other
        refine ⟨⟨entity, replies, .error (.entitySource cause.message)⟩, s', _, ?_, ?_,
          .failed cached loads⟩
        · simp only [entities, cached, loaded]
        · simp only [watched, entities, cached, logged]

end EntityLoader
end EntityQuery
