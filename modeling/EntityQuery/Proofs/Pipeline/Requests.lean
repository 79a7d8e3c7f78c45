import EntityQuery.Libraries.Plain
import EntityQuery.Proofs.Pipeline.Fetching
import EntityQuery.Proofs.Pipeline.Models
import EntityQuery.Proofs.Query.Aggregation
import EntityQuery.Proofs.Query.Tokens

/-! Requests of pipelines. Each request of a run is that of a query: of the model, of an aggregate
that was merged, or of all instances of an entity type that a function on the client streams. All
but the last name no entity types that the metamodel does not have. -/
namespace EntityQuery

variable {σ α : Type} {inv : σ → Prop} {allowed : FetchRequest → Prop}

/-! ### Terminal operations -/

namespace Pipeline

/-- The functions that a terminal operation runs on the client: those of the steps, and that of an
aggregate that is not merged. -/
inductive Runs (p : Pipeline) : {α : Type} → Terminal α → ClientFunction → Prop
  | step {α : Type} {t : Terminal α} {step : Step} {f : ClientFunction} (mem : step ∈ p.steps)
    (calls : step.function? = some f) : Runs p t f
  | aggregate {kind : Aggregate} {g : Lambda} {f : ClientFunction} (client : g.client = .ok f)
    (apart : p.runsClientSide ∨ ∀ m, p.aggregateModel kind (some g) ≠ .ok m) :
    Runs p (.aggregate kind g) f

/-- The models whose queries a terminal operation sends. -/
inductive Sends (p : Pipeline) : {α : Type} → Terminal α → QueryModel → Prop
  | own {α : Type} {t : Terminal α} : Sends p t p.model
  | aggregate {kind : Aggregate} {g : Lambda} {m : QueryModel}
    (merged : p.aggregateModel kind (some g) = .ok m) : Sends p (.aggregate kind g) m
  | count {m : QueryModel} (merged : p.aggregateModel .count none = .ok m) : Sends p .count m
  | entities {α : Type} {t : Terminal α} {f : ClientFunction} {entity : String} (runs : Runs p t f)
    (streams : f.Streams entity) : Sends p t (.root entity)

section Terminals

variable [Libraries] {p : Pipeline} {executor : Executor σ} (guards : executor.Guards allowed inv)
include guards

theorem maintains_fetchSingle {m : QueryModel}
    (permitted : ∀ q, m.compile p.dialect = .ok q → q.Permitted allowed) :
    Maintains (Behind inv) (p.fetchSingle executor m) fun _ => True := by
  unfold fetchSingle
  cases hq : m.compile p.dialect with
  | error e => exact .pure trivial
  | ok q =>
    refine (guards.fetchOnce (permitted q hq q.window)).onExecutor.bind fun rows _ => ?_
    cases rows <;> exact .pure trivial

theorem maintains_mapValues {f : ClientFunction} (permitted : f.Permitted allowed p.dialect)
    (loader : EntityLoader) (vs : List Value) :
    Maintains (Behind inv) (mapValues (p.engine executor) f loader vs) fun _ => True := by
  have guarded : (p.engine executor).executor.Guards allowed inv := guards
  induction vs generalizing loader with
  | nil => exact .pure trivial
  | cons v vs ih =>
    have called := EntityLoader.maintains_call guarded loader permitted [v]
    refine called.bind fun ⟨result, loader'⟩ _ => ?_
    cases result with
    | error e => exact .pure trivial
    | ok w => exact (ih loader').bind fun _ _ => .pure trivial

variable (own : ∀ q, p.model.compile p.dialect = .ok q → q.Permitted allowed)
  (called : ∀ step ∈ p.steps, ∀ f ∈ step.function?, f.Permitted allowed p.dialect)
include own called

theorem maintains_feed : Maintains (Behind inv) (p.feed executor)
    fun | .ok feed => feed.Permitted allowed p.dialect | .error _ => True := by
  unfold feed
  cases hq : p.compile with
  | error e => exact .pure trivial
  | ok q =>
    have compiled : p.model.compile p.dialect = .ok q := by
      unfold compile at hq
      split at hq
      · cases hq
      · exact mapError_ok_iff.1 hq
    refine (Cursor.maintains_start guards q p.model.hints.pageSize).onExecutor.bind ?_
    intro result started
    cases result with
    | error e => exact .pure trivial
    | ok cursor =>
      have fed : Origin.Permitted allowed (.rows cursor q.nesting) := by
        change cursor.query.Permitted allowed
        rw [show cursor.query = q from started]
        exact own q compiled
      exact .pure (Feed.permitted_ofSteps called fed)

theorem maintains_collectAs (read : Reader α) :
    Maintains (Behind inv) (p.collectAs executor read) fun _ => True := by
  have guarded : (p.engine executor).executor.Guards allowed inv := guards
  refine (maintains_feed guards own called).bind fun result fed => ?_
  cases result with
  | error e => exact .pure trivial
  | ok feed => exact Feed.maintains_collect guarded _ feed fed

theorem maintains_toList : Maintains (Behind inv) (p.toList executor) fun _ => True :=
  maintains_collectAs guards own called Reader.value

theorem maintains_foldElements {kind : Aggregate} {g : Option Lambda}
    (folded : ∀ g' ∈ g, ∀ f, g'.client = .ok f → f.Permitted allowed p.dialect) :
    Maintains (Behind inv) (p.foldElements executor kind g) fun _ => True := by
  refine (maintains_toList guards own called).bind fun elements _ => ?_
  cases elements with
  | error e => exact .pure trivial
  | ok elements =>
    cases g with
    | none => exact .pure trivial
    | some g =>
      dsimp only
      cases hf : g.client with
      | error e => exact .pure trivial
      | ok f =>
        exact (maintains_mapValues guards (folded g rfl f hf) {} elements).bind fun _ _ =>
          .pure trivial

theorem maintains_aggregate {kind : Aggregate} {g : Option Lambda}
    (merged : ∀ m, p.aggregateModel kind g = .ok m →
      ∀ q, m.compile p.dialect = .ok q → q.Permitted allowed)
    (folded : p.runsClientSide ∨ (∀ m, p.aggregateModel kind g ≠ .ok m) →
      ∀ g' ∈ g, ∀ f, g'.client = .ok f → f.Permitted allowed p.dialect) :
    Maintains (Behind inv) (p.aggregate executor kind g) fun _ => True := by
  unfold aggregate
  cases p.failure with
  | some e => exact .pure trivial
  | none =>
    dsimp only
    split
    · next running => exact maintains_foldElements guards own called (folded (.inl running))
    · cases merges : p.aggregateModel kind g with
      | ok m => exact maintains_fetchSingle guards (merged m merges)
      | error e =>
        have apart : ∀ m, p.aggregateModel kind g ≠ .ok m := by
          intro m ok
          rw [merges] at ok
          cases ok
        dsimp only
        split
        · exact .pure trivial
        · exact maintains_foldElements guards own called (folded (.inr apart))

end Terminals

/-- A terminal operation keeps an invariant that allows all requests of the models it sends. -/
theorem Terminal.maintains_run [Libraries] {p : Pipeline} {executor : Executor σ}
    (guards : executor.Guards allowed inv) (t : Terminal α)
    (permitted : ∀ m, p.Sends t m → ∀ q, m.compile p.dialect = .ok q → q.Permitted allowed) :
    Maintains (Behind inv) (t.run p executor) fun _ => True := by
  have own := permitted p.model .own
  have function {f : ClientFunction} (runs : p.Runs t f) : f.Permitted allowed p.dialect :=
    fun entity streams q hq => permitted _ (.entities runs streams) q (mapError_ok_iff.1 hq)
  have called : ∀ step ∈ p.steps, ∀ f ∈ step.function?, f.Permitted allowed p.dialect :=
    fun step hstep f hf => function (.step hstep hf)
  cases t with
  | compile => exact .pure trivial
  | text => exact .pure trivial
  | toList => exact maintains_toList guards own called
  | collectAs read => exact maintains_collectAs guards own called read
  | onlyValue => exact (maintains_toList guards own called).bind fun _ _ => .pure trivial
  | count =>
    refine (maintains_aggregate guards own called (g := none) ?_ ?_).bind fun _ _ => .pure trivial
    · exact fun m merged => permitted m (.count merged)
    · exact fun _ g' none => by cases none
  | aggregate kind g =>
    refine maintains_aggregate guards own called ?_ ?_
    · exact fun m merged => permitted m (.aggregate merged)
    · rintro apart _ ⟨⟩ f client
      exact function (.aggregate client apart)
  | pulls n =>
    refine (maintains_feed guards own called).bind fun result fed => ?_
    cases result with
    | error e => exact .pure trivial
    | ok feed =>
      have guarded : (p.engine executor).executor.Guards allowed inv := guards
      refine (Feed.maintains_pulls guarded n feed fed).bind fun ⟨_, feed'⟩ fed' => ?_
      exact (Feed.maintains_close guarded feed' fed').bind fun _ _ => .pure trivial

/-! ### Entity types that queries name -/

/-- All entity types whose instances a model ranges over are ones that the metamodel has. -/
def KnowsRoots (metamodel : Metamodel) (m : QueryModel) : Prop :=
  ∀ entity, .root entity ∈ m.sources → metamodel.has entity

variable {p : Pipeline} {m : QueryModel}

/-- A lambda streams only entity types that the metamodel has. -/
theorem has_of_queryForm {f : Lambda} {clause : Clause} {entity : String}
    (form : p.queryForm clause f = .ok (.join (.root entity))) : p.metamodel.has entity := by
  obtain ⟨t, -, means, -⟩ := queryForm_ok form
  obtain ⟨-, op, -, streams⟩ := Trace.queryForm_join means.symm
  cases streams with
  | entity known => exact known

theorem Merges.knowsRoots (merges : p.Merges m) (h : KnowsRoots p.metamodel p.model) :
    KnowsRoots p.metamodel m := by
  cases merges with
  | select form merged => obtain ⟨-, rfl⟩ := QueryModel.select_eq merged; exact h
  | filter form merged => obtain ⟨-, rfl⟩ := QueryModel.filter_eq merged; exact h
  | sort form merged => obtain ⟨-, rfl⟩ := QueryModel.sort_eq merged; exact h
  | distinct merged => obtain ⟨-, rfl⟩ := QueryModel.dedupe_eq merged; exact h
  | skip n => exact h
  | limit n => exact h
  | join form merged =>
    obtain ⟨-, -, -, rfl⟩ := QueryModel.join_eq merged
    intro entity hroot
    rcases List.mem_append.1 hroot with before | last
    · exact h entity before
    · obtain rfl := List.mem_singleton.1 last
      exact has_of_queryForm form

/-- The model of what has not failed knows its entity types, also the one it began with. -/
theorem Reachable.knowsRoots (h : Reachable p) (good : p.failure = none) :
    KnowsRoots p.metamodel p.model := by
  obtain ⟨provider, entity, built⟩ := h
  have opened := Becomes.failure built good
  have known : provider.metamodel.has entity := by
    by_contra unknown
    simp [Provider.all, unknown, fail] at opened
  have start : provider.all entity = { provider.all entity with
      metamodel := provider.metamodel, model := { QueryModel.root entity with
        hints := provider.hints } } := by
    rw [Provider.all, if_pos known]
  rw [(Becomes.surroundings built).1]
  refine built.model (I := KnowsRoots (provider.all entity).metamodel) ?_ (fun _ _ h => h) ?_
  · rw [start]
    intro other hother
    obtain rfl := Source.root.inj (List.mem_singleton.1 hother)
    exact known
  · intro q m same h merges
    rw [← same] at h ⊢
    exact merges.knowsRoots h

/-- What is aggregated ranges over the same sources. -/
theorem sources_of_aggregateModel {kind : Aggregate} {f : Option Lambda}
    (merged : p.aggregateModel kind f = .ok m) : m.sources = p.model.sources := by
  obtain ⟨e, merged⟩ : ∃ e, p.model.aggregate kind e = .ok m := by
    cases f with
    | none => exact ⟨none, mapError_ok_iff.1 merged⟩
    | some f =>
      obtain ⟨form, -, merged⟩ := bind_ok_iff.1 merged
      obtain ⟨e, -, merged⟩ := bind_ok_iff.1 (mapError_ok_iff.1 merged)
      exact ⟨some e, merged⟩
  obtain ⟨-, -, argument, -, rfl, -⟩ := QueryModel.aggregate_eq merged
  rfl

/-- However a pipeline was built, whatever it is asked for and whatever the executor does: each
request is that of a query, and the entity types that the query names are ones that the metamodel
has, except where the query loads all instances of an entity type for a function that streams them
on the client. -/
theorem requests_of_reachable [Libraries] (reachable : Reachable p) (t : Terminal α)
    (executor : Executor σ) (session : Session σ) {request : FetchRequest}
    (sent : request ∈
      (t.run p executor.recorded ⟨(session.executor, []), session.calls⟩).2.executor.2) :
    ∃ (m : QueryModel) (q : CompiledQuery), m.compile p.dialect = .ok q ∧
      request.query = q.text ∧ request.params = q.params ∧
      ∀ entity, .entity entity ∈ m.tokens p.dialect →
        p.metamodel.has entity ∨ (m = .root entity ∧ ∃ f, p.Runs t f ∧ f.Streams entity) := by
  cases good : p.failure with
  | some e =>
    rw [t.run_of_failure good] at sent
    cases sent
  | none =>
    have known := reachable.knowsRoots good
    let Allowed (request : FetchRequest) : Prop :=
      ∃ (m : QueryModel) (q : CompiledQuery), p.Sends t m ∧ m.compile p.dialect = .ok q ∧
        request.query = q.text ∧ request.params = q.params
    have guards := executor.guards_recorded Allowed
    have permitted : ∀ m, p.Sends t m → ∀ q, m.compile p.dialect = .ok q → q.Permitted Allowed :=
      fun m sends q compiled window => ⟨m, q, sends, compiled, rfl, rfl⟩
    have kept := t.maintains_run guards permitted ⟨(session.executor, []), session.calls⟩
      (List.forall_mem_nil _)
    obtain ⟨m, q, sends, compiled, text, params⟩ := kept.2 request sent
    refine ⟨m, q, compiled, text, params, fun entity named => ?_⟩
    have root := QueryModel.root_of_entity_mem_tokens named
    cases sends with
    | own => exact .inl (known entity root)
    | aggregate merged => exact .inl (known entity (sources_of_aggregateModel merged ▸ root))
    | count merged => exact .inl (known entity (sources_of_aggregateModel merged ▸ root))
    | @entities _ _ f other runs streams =>
      obtain rfl := Source.root.inj (List.mem_singleton.1 root)
      exact .inr ⟨rfl, f, runs, streams⟩

open Libraries.Plain in
theorem requests_of_worstDebtor :
    let log := (Terminal.toList.run worstDebtor twoCustomersExecutor.recorded
      ⟨((), []), []⟩).2.executor.2
    log.map FetchRequest.query = ["SELECT A FROM Customer A ORDER BY A.debt DESC"] ∧
      ∀ request ∈ log, ∃ (m : QueryModel) (q : CompiledQuery), m.compile .jpql = .ok q ∧
        request.query = q.text ∧ request.params = q.params ∧
        ∀ entity, .entity entity ∈ m.tokens .jpql → debtors.has entity ∨
          (m = .root entity ∧ ∃ f, worstDebtor.Runs .toList f ∧ f.Streams entity) := by
  have reached : Reachable worstDebtor :=
    ⟨_, _, .tail (.tail .refl (.operation (.sort owed .descending))) (.operation (.limit 1))⟩
  have text : worstDebtor.model.text .jpql = "SELECT A FROM Customer A ORDER BY A.debt DESC" := by
    decide +kernel
  refine ⟨congrArg (fun text => [text]) text, fun request sent => ?_⟩
  exact requests_of_reachable reached .toList twoCustomersExecutor ⟨(), []⟩ sent

/-- All customers, each paired with every instance of an entity type that there is not:
`fun c provider => provider.stranger`. -/
def strangers : Pipeline :=
  (Provider.all { metamodel := debtors, hints := { strict := false } } "Customer").join
    (.traced 2 [] (.streamOf (.param 1) "Stranger"))

open Libraries.Plain in
/-- On the client the provider streams entity types that the metamodel does not have. -/
theorem requests_of_strangers :
    debtors.validate = .ok () ∧ debtors.has "Stranger" = false ∧ Reachable strangers ∧
    (Terminal.toList.run strangers twoCustomersExecutor.recorded
      ⟨((), []), []⟩).2.executor.2.map FetchRequest.query =
        ["SELECT A FROM Customer A", "SELECT A FROM Stranger A"] ∧
    .entity "Stranger" ∈ (QueryModel.root "Stranger").tokens .jpql ∧
    (QueryModel.root "Stranger").text .jpql = "SELECT A FROM Stranger A" := by
  have customers : strangers.model.text .jpql = "SELECT A FROM Customer A" := by decide +kernel
  have loaded : (QueryModel.root "Stranger").text .jpql = "SELECT A FROM Stranger A" := by
    decide +kernel
  have sent : (Terminal.toList.run strangers twoCustomersExecutor.recorded
      ⟨((), []), []⟩).2.executor.2.map FetchRequest.query =
        [strangers.model.text .jpql, (QueryModel.root "Stranger").text .jpql] := rfl
  rw [customers, loaded] at sent
  have named : .entity "Stranger" ∈ (QueryModel.root "Stranger").tokens .jpql := by
    simp [QueryModel.tokens, QueryModel.root, Emission.fromTokens, Emission.commaSeparated,
      Emission.sourceTokens]
  exact ⟨rfl, rfl, ⟨_, _, .tail .refl (.operation (.join _))⟩, sent, named, loaded⟩

end Pipeline
end EntityQuery
