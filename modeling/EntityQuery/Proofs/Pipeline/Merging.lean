import EntityQuery.Pipeline.Basic
import EntityQuery.Proofs.Libraries.Plain
import EntityQuery.Proofs.Pipeline.Draining
import EntityQuery.Proofs.Query.Merging
import EntityQuery.Proofs.QueryForm.Agreement

/-! Merged pipelines mean what their steps make. A pipeline all of whose clauses merge asks of a
database for the elements that the steps of the same clauses make of the instances of its entity
type, one step after the other. -/
namespace EntityQuery

/-- On a database the stream of an entity type brings its instances. -/
theorem Trace.on_root {t : Trace} {m : Metamodel} {bindings : List Binding} {db : Database}
    {entity : String} (form : t.queryForm m bindings = .join (.root entity))
    (arguments : List Value) :
    (ClientFunction.traced t).on db arguments = .ok (.list (db entity)) := by
  obtain ⟨noCalls, op, hop, streams⟩ := queryForm_join form
  cases streams
  obtain ⟨fuel, length⟩ : ∃ fuel, t.ops.length = fuel + 1 :=
    Nat.exists_eq_succ_of_ne_zero fun empty => by simp [List.length_eq_zero_iff.1 empty] at hop
  have computed : (Evaluation.valueOf db.source arguments t.ops (fuel + 1) t.result).run
      { calls := [], source := () } = (.ok (.list (db entity)),
        { memo := [(t.result, .list (db entity))], calls := [], source := () }) := by
    rw [Evaluation.valueOf, hop]
    rfl
  rw [ClientFunction.on, ClientFunction.call, ClientFunction.evaluation, Evaluation.ofTrace,
    independentCalls_eq_nil noCalls, length]
  exact congrArg Prod.fst computed

namespace Pipeline

variable {p : Pipeline} {clause : Clause} {f : Lambda}

/-- Nothing failed and nothing runs on the client. -/
def Merged (p : Pipeline) : Prop := p.steps = [] ∧ p.failure = none

theorem not_merged_fallBack {e : CompileError} {step : Option Step} :
    ¬(p.fallBack e step).Merged := by
  rintro ⟨steps, failure⟩
  cases step with
  | none => simp [fallBack, fail] at failure
  | some step =>
    by_cases strict : p.model.hints.strict = true
    · simp [fallBack, fail, strict] at failure
    · simp [fallBack, addStep, strict] at steps

/-- A clause with a lambda that merged changed nothing but the model. -/
theorem addLambda_merged {merge : QueryForm → Except MergeError QueryModel}
    {step : ClientFunction → Step} (h : (p.addLambda clause f merge step).Merged) :
    p.Merged ∧ ∃ form model, p.queryForm clause f = .ok form ∧ merge form = .ok model ∧
      p.addLambda clause f merge step = { p with model } := by
  unfold addLambda at h ⊢
  split at h
  · next failed => simp [h.2] at failed
  next good =>
  split at h
  · next running =>
    split at h
    · simp [Merged, addStep] at h
    · simp [Merged, fail] at h
  next merging =>
  split at h
  · next model merged =>
    obtain ⟨form, hform, hmodel⟩ := bind_ok_iff.1 merged
    exact ⟨⟨by simpa [runsClientSide] using merging, by simpa using good⟩, form, model, hform,
      mapError_ok_iff.1 hmodel, by rw [if_neg good, if_neg merging]⟩
  · exact absurd h not_merged_fallBack

theorem addPlain_merged {merged : Except MergeError QueryModel} {step : Step}
    (h : (p.addPlain clause merged step).Merged) :
    p.Merged ∧ ∃ model, merged = .ok model ∧ p.addPlain clause merged step = { p with model } := by
  unfold addPlain at h ⊢
  split at h
  · next failed => simp [h.2] at failed
  next good =>
  split at h
  · simp [Merged, addStep] at h
  next merging =>
  split at h
  · next model =>
    exact ⟨⟨by simpa [runsClientSide] using merging, by simpa using good⟩, model, rfl,
      by rw [if_neg good, if_neg merging]⟩
  · exact absurd h not_merged_fallBack

/-- A lambda with a query form runs on the client as the trace of that form. -/
theorem queryForm_ok {form : QueryForm} (h : p.queryForm clause f = .ok form) :
    ∃ t, f.client = .ok (.traced t) ∧
      form = t.queryForm p.metamodel (p.bindings (expectedArity clause f)) ∧
      form.unsupported? = none := by
  obtain ⟨t, extracted, h⟩ := bind_ok_iff.1 h
  have client : f.client = .ok (.traced t) := by
    rw [Lambda.extractWithArity] at extracted
    split at extracted
    · have extracted := mapError_ok_iff.1 extracted
      cases f with
      | sealed run => cases extracted
      | traced arity preparation body => exact congrArg (Except.map ClientFunction.traced) extracted
    · cases extracted
  refine ⟨t, client, ?_⟩
  dsimp only at h
  split at h
  · cases h
  · next supported =>
    obtain rfl := Except.ok.inj h
    exact ⟨rfl, supported⟩

/-- The expression that a lambda stands for is a supported query form of its trace. -/
theorem translation_ok {e : Expr} (h : p.queryForm clause f = .ok (.expr e)) :
    ∃ t, f.client = .ok (.traced t) ∧
      t.queryForm p.metamodel (p.bindings (expectedArity clause f)) = .expr e ∧
      e.isUnsupported = false := by
  obtain ⟨t, client, form, supported⟩ := queryForm_ok h
  exact ⟨t, client, form.symm, QueryForm.supported_of_unsupported? supported⟩

/-- What is bound is the element. -/
theorem of_mem_bindings {P : Expr → Prop} (element : P p.model.element) (b : Expr)
    (hb : Binding.element b ∈ p.bindings (expectedArity clause f)) : P b := by
  obtain rfl : b = p.model.element := by
    unfold bindings at hb
    split at hb <;> simpa using hb
  exact element

/-- Lambdas have formed expressions over a formed element. -/
theorem formed_of_queryForm {sources : List String} {e : Expr}
    (h : p.queryForm clause f = .ok (.expr e))
    (element : p.model.element.Formed p.metamodel sources) : e.Formed p.metamodel sources := by
  obtain ⟨t, -, form, supported⟩ := translation_ok h
  exact Trace.formed_queryForm (of_mem_bindings element) form supported

/-! ### Operations and what they ask for -/

/-- A clause with what is given to it. -/
inductive Operation where
  | select (f : Lambda)
  | filter (f : Lambda)
  | join (f : Lambda)
  | sort (f : Lambda) (direction : Direction)
  | distinct
  | skip (n : UInt64)
  | limit (n : UInt64)

def apply (p : Pipeline) : Operation → Pipeline
  | .select f => p.select f
  | .filter f => p.filter f
  | .join f => p.join f
  | .sort f direction => p.sort f direction
  | .distinct => p.distinct
  | .skip n => p.skip n
  | .limit n => p.limit n

/-- The step that an operation is on the client. -/
def Operation.step : Operation → Except ExtractError Step
  | select f => f.client.map .map
  | filter f => f.client.map .filter
  | join f => f.client.map .flatMap
  | sort f direction => f.client.map (.sort · direction)
  | distinct => .ok .distinct
  | skip n => .ok (.skip n)
  | limit n => .ok (.limit n)

/-- A pipeline that runs on the client takes an operation as its step. -/
theorem apply_of_runsClientSide {op : Operation} {step : Step} (good : p.failure = none)
    (running : p.runsClientSide) (client : op.step = .ok step) :
    p.apply op = p.addStep step := by
  have added {f : Lambda} {clause : Clause} {merge : QueryForm → Except MergeError QueryModel}
      {make : ClientFunction → Step} (h : f.client.map make = .ok step) :
      p.addLambda clause f merge make = p.addStep step := by
    cases hf : f.client with
    | error e => rw [hf] at h; cases h
    | ok run =>
      rw [hf] at h
      obtain rfl : make run = step := Except.ok.inj h
      simp [addLambda, good, running, hf]
  have plain (clause : Clause) (merged : Except MergeError QueryModel) :
      p.addPlain clause merged step = p.addStep step := by
    simp [addPlain, good, running]
  cases op with
  | select f => exact added client
  | filter f => exact added client
  | join f => exact added client
  | sort f direction => exact added client
  | distinct =>
    obtain rfl : Step.distinct = step := Except.ok.inj client
    exact plain .distinct _
  | skip n =>
    obtain rfl : Step.skip n = step := Except.ok.inj client
    exact plain .window (.ok _)
  | limit n =>
    obtain rfl : Step.limit n = step := Except.ok.inj client
    exact plain .window (.ok _)

end Pipeline

/-- On a row a path reads these items, or null in place of none. -/
def Source.Reads (row : SourceRow) (items : List Value) : Source → Prop
  | root _ => True
  | path parent names entity =>
    let e := Expr.field (.source parent entity) names (.collection entity)
    e.value row = .ok (.list items) ∨ (e.value row = .ok .null ∧ items = [])

theorem Source.members_of_reads {db : Database} {row : SourceRow} {items : List Value}
    {parent : Nat} {names : List String} {entity : String}
    (h : (Source.path parent names entity).Reads row items) :
    (Source.path parent names entity).members db row = items := by
  have reads {w : Value}
      (hw : (Expr.field (.source parent entity) names (.collection entity)).value row = .ok w) :
      row[parent]?.map (Expr.readPath · names) = some (.ok w) := by
    obtain ⟨v, hv, hw⟩ := Expr.value_field.1 hw
    rw [Expr.value] at hv
    split at hv
    · next v' found =>
      obtain rfl := Except.ok.inj hv
      rw [found, Option.map_some, hw]
    · cases hv
  rcases h with list | ⟨null, rfl⟩
  · rw [members, reads list]
  · rw [members, reads null]

namespace Pipeline

variable {p : Pipeline} {db : Database} {l : List Value} {f : Lambda}

/-- On the elements of a list the query form of a lambda has the values that the lambda has. -/
def Agrees (p : Pipeline) (db : Database) (l : List Value) (clause : Clause) (f : Lambda) : Prop :=
  ∀ e run, p.queryForm clause f = .ok (.expr e) → f.client = .ok run →
    ∀ row ∈ p.model.ordered db, ∀ v ∈ l, ∀ w, p.model.element.value row = .ok v →
      run.on db [v] = .ok w → e.value row = .ok w

/-- On the elements of a list the path that a lambda stands for reads what the lambda streams. -/
def StreamsAlike (p : Pipeline) (db : Database) (l : List Value) (f : Lambda) : Prop :=
  ∀ source run, p.queryForm .join f = .ok (.join source) → f.client = .ok run →
    ∀ row ∈ p.model.ordered db, ∀ v ∈ l, ∀ items, p.model.element.value row = .ok v →
      run.on db [v, .null] = .ok (.list items) → source.Reads row items

/-- Query forms agree with their lambdas where the rows conform to the metamodel and the arms of
branches and of conditionals agree. -/
theorem agrees_of_conforming {clause : Clause} (single : clause ≠ .join)
    (rows : ∀ row ∈ p.model.ordered db,
      p.metamodel.ConformingRow (p.model.sources.map Source.entity) row)
    (element : p.model.element.Formed p.metamodel (p.model.sources.map Source.entity))
    (arms : p.model.element.AllArmsAgree)
    (branches : ∀ t, f.client = .ok (.traced t) →
      t.BranchesAgree p.metamodel [.element p.model.element]) : p.Agrees db l clause f := by
  intro e run form hrun row hrow v _ w hv hw
  obtain ⟨t, client, stands, supported⟩ := translation_ok form
  obtain rfl : ClientFunction.traced t = run := Except.ok.inj (client.symm.trans hrun)
  have one : p.bindings (expectedArity clause f) = [p.model.element].map .element := by
    simp [bindings, expectedArity, single]
  rw [one] at stands
  exact t.value_of_call (rows row hrow) (List.forall_mem_singleton.2 element)
    (List.forall_mem_singleton.2 arms) (branches t client) (.cons hv .nil) stands supported hw

/-- What an operation on a list asks for beside the success of its lambda. -/
def Operation.Admissible [Libraries] (db : Database) (p : Pipeline) (l : List Value) :
    Operation → Prop
  | select f => p.Agrees db l .select f
  | filter f => p.Agrees db l .filter f
  | join f => p.StreamsAlike db l f
  | sort f _ => p.Agrees db l .sort f ∧ ∀ run keys, f.client = .ok run →
    List.Forall₂ (fun v key => run.on db [v] = .ok key) l keys → Sortable keys
  | distinct => ToldApart l
  | skip n => p.model.window.skip.toNat + n.toNat < UInt64.size ∨
    (p.model.unwindowed db).length < UInt64.size
  | limit _ => True

/-- Operations on all instances of an entity type that merge one after the other, with the steps
that they are on the client and what these make of the instances. -/
inductive Run [Libraries] (db : Database) (entity : String) :
    Pipeline → List Step → List Value → Prop
  | all {provider : Provider} (known : provider.metamodel.has entity) :
    Run db entity (provider.all entity) [] (db entity)
  | operation {p : Pipeline} {op : Operation} {steps : List Step} {step : Step}
    {l l' : List Value} (before : Run db entity p steps l) (merged : (p.apply op).Merged)
    (client : op.step = .ok step) (makes : step.Makes db l l')
    (admissible : op.Admissible db p l) : Run db entity (p.apply op) (steps ++ [step]) l'

/-! ### A merged operation keeps the model in step with the list -/

theorem expression_ok {clause : Clause} {form : QueryForm} {e : Expr}
    (h : expression clause form = .ok e) : form = .expr e := by
  cases form with
  | expr e' => rw [Except.ok.inj h]
  | join source => cases h

theorem source_ok {form : QueryForm} {found : Source} (h : source form = .ok found) :
    form = .join found := by
  cases form with
  | expr e => cases h
  | join source' => rw [Except.ok.inj h]

/-- A clause that needs an expression has merged it, and its step runs the same lambda. -/
theorem addLambda_expression {clause : Clause} {merge : Expr → Except MergeError QueryModel}
    {make : ClientFunction → Step} {step : Step}
    (merged : (p.addLambda clause f (fun t => do merge (← expression clause t)) make).Merged)
    (client : f.client.map make = .ok step) :
    ∃ e run model, p.queryForm clause f = .ok (.expr e) ∧ f.client = .ok run ∧ make run = step ∧
      merge e = .ok model ∧
      p.addLambda clause f (fun t => do merge (← expression clause t)) make = { p with model } := by
  obtain ⟨-, form, model, hform, hmodel, heq⟩ := addLambda_merged merged
  obtain ⟨e, he, hmerge⟩ := bind_ok_iff.1 hmodel
  obtain rfl := expression_ok he
  obtain ⟨t, hclient, -⟩ := queryForm_ok hform
  rw [hclient] at client
  exact ⟨e, .traced t, model, hform, hclient, Except.ok.inj client, hmerge, heq⟩

/-- A join has merged its source, and its step runs the same lambda. -/
theorem join_source {step : Step} (merged : (p.join f).Merged)
    (client : f.client.map .flatMap = .ok step) :
    ∃ found t model, p.queryForm .join f = .ok (.join found) ∧ f.client = .ok (.traced t) ∧
      .flatMap (.traced t) = step ∧ p.model.join found = .ok model ∧
      p.join f = { p with model } := by
  obtain ⟨-, form, model, hform, hmodel, heq⟩ := addLambda_merged merged
  obtain ⟨found, hsource, hmerge⟩ := bind_ok_iff.1 hmodel
  obtain rfl := source_ok hsource
  obtain ⟨t, hclient, -⟩ := queryForm_ok hform
  rw [hclient] at client
  exact ⟨found, t, model, hform, hclient, Except.ok.inj client, hmerge, heq⟩

/-- A merged source ranges over what the lambda streams. -/
theorem members_of_streams {found : Source} {t : Trace} {items : Value → List Value}
    (form : p.queryForm .join f = .ok (.join found)) (client : f.client = .ok (.traced t))
    (alike : p.StreamsAlike db l f)
    (succeeds : ∀ v ∈ l, (ClientFunction.traced t).on db [v, .null] = .ok (.list (items v))) :
    ∀ row ∈ p.model.ordered db, ∀ v ∈ l, p.model.element.value row = .ok v →
      found.members db row = items v := by
  intro row hrow v hv h
  cases found with
  | root entity =>
    obtain ⟨t', client', stands, -⟩ := queryForm_ok form
    obtain rfl : t' = t := ClientFunction.traced.inj (Except.ok.inj (client'.symm.trans client))
    have brought : (ClientFunction.traced t').on db [v, .null] = .ok (.list (db entity)) :=
      Trace.on_root stands.symm _
    exact Value.list.inj (Except.ok.inj (brought.symm.trans (succeeds v hv)))
  | path parent names entity =>
    exact Source.members_of_reads
      (alike _ _ form client row hrow v hv (items v) h (succeeds v hv))

/-- With an operation the model asks for what its step makes of the list. -/
theorem apply_mirrors [Libraries] [Libraries.SortsStably] [Libraries.JsonNumerals] {op : Operation}
    {step : Step} {l' : List Value} (mirrors : Mirrors p.metamodel db p.model l)
    (merged : (p.apply op).Merged) (client : op.step = .ok step) (makes : step.Makes db l l')
    (admissible : op.Admissible db p l) :
    Mirrors (p.apply op).metamodel db (p.apply op).model l' := by
  cases op with
  | select f =>
    obtain ⟨e, run, model, form, hrun, rfl, hmerge, heq⟩ := addLambda_expression merged client
    cases makes with
    | @map _ g _ succeeds =>
      rw [apply, select, heq]
      exact mirrors.select hmerge (formed_of_queryForm form mirrors.element) fun row hrow v hv h =>
        admissible e run form hrun row hrow v hv (g v) h (succeeds v hv)
  | filter f =>
    obtain ⟨e, run, model, form, hrun, rfl, hmerge, heq⟩ := addLambda_expression merged client
    cases makes with
    | @filter _ keep _ succeeds =>
      rw [apply, filter, heq]
      exact mirrors.filter hmerge (formed_of_queryForm form mirrors.element) fun row hrow v hv h =>
        admissible e run form hrun row hrow v hv (.bool (keep v)) h (succeeds v hv)
  | join f =>
    obtain ⟨found, run, model, form, hrun, rfl, hmerge, heq⟩ := join_source merged client
    cases makes with
    | @flatMap _ items _ succeeds =>
      rw [apply, heq]
      exact mirrors.join hmerge (members_of_streams form hrun admissible succeeds)
  | sort f direction =>
    obtain ⟨agrees, sortable⟩ := admissible
    obtain ⟨e, run, model, form, hrun, rfl, hmerge, heq⟩ := addLambda_expression merged client
    cases makes with
    | @sort _ _ key _ succeeds =>
      have keys : List.Forall₂ (fun v k => run.on db [v] = .ok k) l (l.map key) :=
        List.forall₂_map_right_iff.2 (List.forall₂_same.2 succeeds)
      rw [apply, sort, heq]
      exact mirrors.sort hmerge (formed_of_queryForm form mirrors.element)
        ((sortable run _ hrun keys).orderedOn direction) fun row hrow v hv h =>
          agrees e run form hrun row hrow v hv (key v) h (succeeds v hv)
  | distinct =>
    obtain rfl : Step.distinct = step := Except.ok.inj client
    obtain ⟨-, model, hmerge, heq⟩ := addPlain_merged merged
    cases makes
    rw [apply, distinct, heq]
    exact mirrors.dedupe hmerge admissible
  | skip n =>
    obtain rfl : Step.skip n = step := Except.ok.inj client
    obtain ⟨-, model, hmerge, heq⟩ := addPlain_merged merged
    obtain rfl := Except.ok.inj hmerge
    cases makes
    rw [apply, skip, heq]
    exact mirrors.skip n admissible
  | limit n =>
    obtain rfl : Step.limit n = step := Except.ok.inj client
    obtain ⟨-, model, hmerge, heq⟩ := addPlain_merged merged
    obtain rfl := Except.ok.inj hmerge
    cases makes
    rw [apply, limit, heq]
    exact mirrors.limit n

theorem Run.mirrors [Libraries] [Libraries.SortsStably] [Libraries.JsonNumerals] {entity : String}
    {steps : List Step} (run : Run db entity p steps l) : Mirrors p.metamodel db p.model l := by
  induction run with
  | @all provider known =>
    rw [Provider.all, if_pos known]
    exact Mirrors.root entity provider.hints
  | operation _ merged client makes admissible ih =>
    exact apply_mirrors ih merged client makes admissible

theorem Run.makeAll [Libraries] {entity : String} {steps : List Step}
    (run : Run db entity p steps l) : Step.MakeAll db steps (db entity) l := by
  induction run with
  | all => exact .nil
  | operation _ _ _ makes _ ih => exact .snoc ih makes

/-- Merging means the same as running on the client: the model of a pipeline whose operations have
merged asks for the elements that their steps, drained over the instances, bring. -/
theorem items_of_run [Libraries] [Libraries.SortsStably] [Libraries.JsonNumerals] {entity : String}
    {steps : List Step} (run : Run db entity p steps l) : p.model.items db = l.map .ok ∧
    ∃ n, ∀ {σ : Type} {engine : Engine σ} {inv : σ → Prop}, engine.Serves db inv →
      n ≤ engine.steps → ∀ session, inv session.executor →
        (Feed.collect engine .ok (Feed.ofSteps steps (.items ((db entity).map .ok))) session).1 =
          .ok l :=
  ⟨run.mirrors.items, Feed.collect_ofSteps run.makeAll⟩

/-! ### Two customers -/

def customerOwing (debt : Int64) (vip : Bool) : Value :=
  .entity "Customer" [("debt", .int debt), ("vip", .bool vip)]

theorem customerOwing_conforms (debt : Int64) (vip : Bool) :
    debtors.ConformingRow ["Customer"] [customerOwing debt vip] := by
  refine .cons (.entity_of_entries ?_) .nil
  simp only [List.forall_mem_cons]
  refine ⟨fun kind h => ?_, fun kind h => ?_, by simp⟩
  · cases h
    exact .int debt
  · cases h
    exact .bool vip

def twoCustomers : Database := fun _ => [customerOwing 0 true, customerOwing 1 false]

def customers : Pipeline := Provider.all { metamodel := debtors } "Customer"

/-- The rows of a pipeline over customers are single customers. -/
theorem twoCustomers_conforming {p : Pipeline} (metamodel : p.metamodel = debtors)
    (sources : p.model.sources = [.root "Customer"]) :
    ∀ row ∈ p.model.ordered twoCustomers,
      p.metamodel.ConformingRow (p.model.sources.map Source.entity) row := by
  intro row hrow
  have among := (List.mem_filter.1 (QueryModel.mem_ordered.1 hrow)).1
  rw [metamodel, sources]
  simp only [QueryModel.product, sources, List.foldl_cons, List.foldl_nil, List.flatMap_cons,
    List.flatMap_nil, List.append_nil, Source.extend, Source.members, twoCustomers, List.map_cons,
    List.map_nil, List.nil_append, List.mem_cons, List.not_mem_nil, or_false] at among
  rcases among with rfl | rfl
  · exact customerOwing_conforms 0 true
  · exact customerOwing_conforms 1 false

/-- `fun c => c.debt` -/
def owed : Lambda := .traced 1 [] (.field (.param 0) "debt")

def owedTrace : Trace := ⟨1, [.param 0, .field 0 "debt"], 1⟩

theorem owedTrace_on (debt : Int64) (vip : Bool) :
    (ClientFunction.traced owedTrace).on twoCustomers [customerOwing debt vip] =
      .ok (.int debt) := rfl

def owedBy : Value → Value
  | .entity _ ((_, debt) :: _) => debt
  | _ => .null

/-- The customer who owes most. -/
def worstDebtor : Pipeline := (customers.sort owed .descending).limit 1

/-- Answers every query with the two customers. -/
def twoCustomersExecutor : Executor Unit where
  acquire := return .ok 0
  fetch _ _ := return .ok [[customerOwing 0 true], [customerOwing 1 false]]
  release _ := return ()

theorem twoCustomersExecutor_loads [Libraries] :
    Engine.Loads { executor := twoCustomersExecutor, dialect := .jpql } twoCustomers.extents
      fun _ => True := by
  have serves : Engine.Serves { executor := twoCustomersExecutor, dialect := .jpql } twoCustomers
      fun _ => True := EntityLoader.serves_of_answers fun _ _ _ _ _ => ⟨rfl, trivial⟩
  exact serves

open Libraries.Plain in
theorem items_of_worstDebtor :
    worstDebtor.model.items twoCustomers = [.ok (customerOwing 1 false)] ∧
    ∃ n, (Feed.collect { executor := twoCustomersExecutor, dialect := .jpql, steps := n } .ok
      (Feed.ofSteps [.sort (.traced owedTrace) .descending, .limit 1]
        (.items [.ok (customerOwing 0 true), .ok (customerOwing 1 false)])) ⟨(), []⟩).1 =
      .ok [customerOwing 1 false] := by
  have opened : Run twoCustomers "Customer" customers [] (twoCustomers "Customer") := .all rfl
  have keyed : ∀ v ∈ twoCustomers "Customer",
      (ClientFunction.traced owedTrace).on twoCustomers [v] = .ok (owedBy v) := by
    simp only [twoCustomers, List.forall_mem_cons]
    exact ⟨owedTrace_on 0 true, owedTrace_on 1 false, by simp⟩
  have agrees : customers.Agrees twoCustomers (twoCustomers "Customer") .sort owed := by
    refine agrees_of_conforming (by simp) (twoCustomers_conforming rfl rfl) (.source rfl)
      (Expr.allArmsAgree_leaf rfl rfl) ?_
    rintro t ⟨⟩
    simp [Trace.BranchesAgree]
  have sorted : Run twoCustomers "Customer" (customers.apply (.sort owed .descending))
      [.sort (.traced owedTrace) .descending] [customerOwing 1 false, customerOwing 0 true] := by
    refine .operation opened ⟨rfl, rfl⟩ rfl (.sort keyed) ⟨agrees, ?_⟩
    rintro run keys ⟨⟩ (_ | ⟨first, _ | ⟨second, ⟨⟩⟩⟩)
    cases (owedTrace_on 0 true).symm.trans first
    cases (owedTrace_on 1 false).symm.trans second
    exact ⟨List.pairwise_pair.2 rfl, .inl (by simp [Value.floatFree])⟩
  have limited : Run twoCustomers "Customer" (Pipeline.apply _ (.limit 1)) _ _ :=
    .operation sorted ⟨rfl, rfl⟩ rfl .limit trivial
  obtain ⟨items, n, drained⟩ := items_of_run limited
  have serves : Engine.Serves { executor := twoCustomersExecutor, dialect := .jpql, steps := n }
      twoCustomers fun _ => True :=
    EntityLoader.serves_of_answers fun _ _ _ _ _ => ⟨rfl, trivial⟩
  exact ⟨items, n, drained serves (Nat.le_refl n) ⟨(), []⟩ trivial⟩

/-- `fun c => (if c.vip then 0.0 else 1.0) / 0.0` -/
def quotient : Lambda :=
  .traced 1 [] (.binary .div
    (.branch (.field (.param 0) "vip") (.const (.float 0)) (.const (.float 1))) (.const (.float 0)))

def quotientTrace : Trace where
  arity := 1
  ops := [.param 0, .field 0 "vip", .const (.float 0), .const (.float 1), .branch 1 2 3,
    .const (.float 0), .binary .div 4 5]
  result := 6

/-- `fun x => x == x` -/
def itself : Lambda := .traced 1 [] (.binary .eq (.param 0) (.param 0))

def itselfTrace : Trace := ⟨1, [.param 0, .binary .eq 0 0], 1⟩

/-- The distinct quotients. -/
def quotients : Pipeline := (customers.select quotient).distinct

theorem quotient_agrees :
    customers.Agrees twoCustomers (twoCustomers "Customer") .select quotient := by
  refine agrees_of_conforming (by simp) (twoCustomers_conforming rfl rfl) (.source rfl)
    (Expr.allArmsAgree_leaf rfl rfl) ?_
  rintro t ⟨⟩ c a b h
  simp at h
  obtain ⟨rfl, rfl, rfl⟩ := h
  rfl

theorem itself_agrees (l : List Value) : quotients.Agrees twoCustomers l .filter itself := by
  have form : customers.queryForm .select quotient = .ok (.expr quotients.model.element) := rfl
  have element : quotients.model.element.Formed debtors ["Customer"] :=
    formed_of_queryForm form (.source rfl)
  refine agrees_of_conforming (by simp) (twoCustomers_conforming rfl rfl) element ?_ ?_
  · refine Expr.allArmsAgree_binary.2 ⟨Expr.allArmsAgree_conditional.2 ⟨rfl, ?_, ?_, ?_⟩, ?_⟩
    · exact Expr.allArmsAgree_field.2 (Expr.allArmsAgree_leaf rfl rfl)
    all_goals exact Expr.allArmsAgree_leaf rfl rfl
  · rintro t ⟨⟩
    simp [Trace.BranchesAgree]

open Libraries.Plain in
/-- A NaN and an infinity share a text, so the client drops the infinity behind the NaN, and then
the NaN for not being equal to itself. -/
theorem quotients_makeAll : Step.MakeAll twoCustomers
    [.map (.traced quotientTrace), .distinct, .filter (.traced itselfTrace)]
    (twoCustomers "Customer") [] := by
  have mapped : (Step.map (.traced quotientTrace)).Makes twoCustomers (twoCustomers "Customer")
      [.float (0 / 0), .float (1 / 0)] := by
    refine .map (g := fun v =>
      ((ClientFunction.traced quotientTrace).on twoCustomers [v]).toOption.getD .null) ?_
    simp only [twoCustomers, List.forall_mem_cons]
    exact ⟨rfl, rfl, by simp⟩
  have same : Value.key (.float (1 / 0)) = Value.key (.float (0 / 0)) := by decide +kernel
  have once : keepFirst Value.key [.float (0 / 0), .float (1 / 0)] = [.float (0 / 0)] := by
    simp [keepFirst, same]
  have differs : ((0 / 0 : Float) == 0 / 0) = false := by decide +kernel
  have rejected : ∀ v ∈ [Value.float (0 / 0)],
      (ClientFunction.traced itselfTrace).on twoCustomers [v] = .ok (.bool false) := by
    rw [List.forall_mem_singleton, ← differs]
    rfl
  exact .snoc (.snoc (.snoc .nil mapped) (once ▸ .distinct)) (Step.Makes.filter rejected)

/-- The model asks for the infinity. -/
theorem infinity_mem_items :
    .ok (.float (1 / 0)) ∈ (quotients.filter itself).model.items twoCustomers := by
  have known : [customerOwing 1 false] ∈ (quotients.filter itself).model.product twoCustomers :=
    List.mem_cons_of_mem _ List.mem_cons_self
  have equal : ((1 / 0 : Float) == 1 / 0) = true := by decide +kernel
  have kept : [customerOwing 1 false] ∈ (quotients.filter itself).model.ordered twoCustomers :=
    QueryModel.mem_ordered.2 (List.mem_filter.2 ⟨known, equal⟩)
  have item : .ok (.float (1 / 0)) ∈ ((quotients.filter itself).model.ordered twoCustomers).map
      (quotients.filter itself).model.item := List.mem_map_of_mem kept
  have single : (quotients.filter itself).model.distinct = true := rfl
  classical
  obtain ⟨w, hw, same⟩ : ∃ w ∈ keepFirst id _, id w = id _ := exists_mem_keepFirst item
  obtain rfl : w = .ok (.float (1 / 0)) := same
  rw [QueryModel.items, Window.slice_of_isUnbounded rfl, QueryModel.unwindowed, if_pos single]
  exact hw

open Libraries.Plain in
/-- Lambdas can make floats of values that hold none, and with them the client and the model part
although all clauses merge, all lambdas succeed and their query forms agree with them. -/
theorem items_ne_of_quotients :
    (∀ entity, ∀ v ∈ twoCustomers entity, v.floatFree) ∧
    (quotients.filter itself).Merged ∧
    [Operation.select quotient, .distinct, .filter itself].mapM Operation.step =
      .ok [.map (.traced quotientTrace), .distinct, .filter (.traced itselfTrace)] ∧
    customers.Agrees twoCustomers (twoCustomers "Customer") .select quotient ∧
    quotients.Agrees twoCustomers [.float (0 / 0)] .filter itself ∧
    Step.MakeAll twoCustomers
      [.map (.traced quotientTrace), .distinct, .filter (.traced itselfTrace)]
      (twoCustomers "Customer") [] ∧
    (quotients.filter itself).model.items twoCustomers ≠ [] := by
  refine ⟨?_, ⟨rfl, rfl⟩, rfl, quotient_agrees, itself_agrees _, quotients_makeAll,
    List.ne_nil_of_mem infinity_mem_items⟩
  simp [twoCustomers, customerOwing, Value.floatFree, Value.floatFreeEntries]

end Pipeline
end EntityQuery
