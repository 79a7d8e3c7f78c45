import EntityQuery.Libraries.Plain
import EntityQuery.Proofs.Pipeline.Navigation
import EntityQuery.Proofs.Query.Redaction
import EntityQuery.Proofs.QueryForm.Redaction

/-! Captured values stay out of the query text. Pipelines that are the same when redacted take the
same course: their clauses merge, run on the client or fail alike, and their queries differ in
nothing but the values of the parameters. Lambdas are the same when redacted if each captured value
of one stands where the other captures a value of the same type, by `Value.redact_eq_iff`. -/
namespace EntityQuery

def Step.redact : Step → Step
  | map f => .map f.redact
  | filter f => .filter f.redact
  | flatMap f => .flatMap f.redact
  | sort key direction => .sort key.redact direction
  | distinct => .distinct
  | skip n => .skip n
  | limit n => .limit n

/-- A model that does not compile although one that is alike does binds a name to two values. -/
theorem QueryModel.conflict_of_compile [Libraries] {m m' : QueryModel} {dialect : Dialect}
    {e : CompileError} {q : CompiledQuery} (same : m.redact = m'.redact)
    (h : m.compile dialect = .error e) (h' : m'.compile dialect = .ok q) :
    ∃ name, e = .parameterConflict name := by
  rcases compile_error h with ⟨cause, invalid, -⟩ | ⟨name, -, conflict⟩
  · have valid := (compile_ok h').1
    rw [← validate_redact, ← same, validate_redact, invalid] at valid
    cases valid
  · exact ⟨name, conflict⟩

namespace Pipeline

def redact (p : Pipeline) : Pipeline :=
  { p with model := p.model.redact, steps := p.steps.map Step.redact }

def Operation.redact : Operation → Operation
  | select f => .select f.redact
  | filter f => .filter f.redact
  | join f => .join f.redact
  | sort f direction => .sort f.redact direction
  | distinct => .distinct
  | skip n => .skip n
  | limit n => .limit n

variable (p : Pipeline) (clause : Clause) (f : Lambda)

@[simp] theorem runsClientSide_redact : p.redact.runsClientSide = p.runsClientSide := by
  unfold runsClientSide redact
  cases p.steps <;> rfl

theorem addStep_redact (step : Step) : p.redact.addStep step.redact = (p.addStep step).redact := by
  simp [addStep, redact]

theorem fallBack_redact (e : CompileError) (step : Option Step) :
    p.redact.fallBack e (step.map Step.redact) = (p.fallBack e step).redact := by
  cases step with
  | none => rfl
  | some step =>
    have strict : p.redact.model.hints.strict = p.model.hints.strict := rfl
    have added := p.addStep_redact step
    rw [Option.map_some, fallBack, fallBack, strict]
    split
    · rfl
    · rw [added]
      rfl

theorem bindings_redact (arity : Nat) :
    p.redact.bindings arity = (p.bindings arity).map Binding.redact := by
  unfold bindings
  have element : p.redact.model.element = p.model.element.redact := p.model.element_redact
  rw [element]
  split <;> rfl

theorem expectedArity_redact : expectedArity clause f.redact = expectedArity clause f := by
  rw [expectedArity, expectedArity, Lambda.arity_redact]

/-- A redacted lambda over the redacted element has the redacted query form. -/
theorem queryForm_redact :
    p.redact.queryForm clause f.redact = (p.queryForm clause f).map QueryForm.redact := by
  have metamodel : p.redact.metamodel = p.metamodel := rfl
  unfold queryForm
  dsimp only
  rw [expectedArity_redact, Lambda.extractWithArity_redact, bindings_redact, metamodel]
  cases f.extractWithArity (expectedArity clause f) with
  | error e => rfl
  | ok t =>
    have form := t.queryForm_redact p.metamodel (p.bindings (expectedArity clause f))
    simp only [Except.map, Except.mapError, bind, Except.bind]
    rw [form, QueryForm.unsupported?_redact]
    cases (t.queryForm p.metamodel (p.bindings (expectedArity clause f))).unsupported? <;> rfl

theorem mergeLambda_redact {merge merge' : QueryForm → Except MergeError QueryModel}
    (merges : ∀ form, merge' form.redact = (merge form).map QueryModel.redact) :
    p.redact.mergeLambda clause f.redact merge' =
      (p.mergeLambda clause f merge).map QueryModel.redact := by
  unfold mergeLambda
  rw [queryForm_redact]
  cases p.queryForm clause f with
  | error e => rfl
  | ok form =>
    show (merge' form.redact).mapError _ = _
    rw [merges]
    cases h : merge form <;> simp [h, Except.map, Except.mapError, bind, Except.bind]

theorem runnable?_redact (e : CompileError) :
    runnable? f.redact e = (runnable? f e).map ClientFunction.redact := by
  unfold runnable?
  rw [Lambda.isSealed_redact, Lambda.client_redact]
  split
  · rfl
  · cases f.client <;> rfl

theorem addLambda_redact {merge merge' : QueryForm → Except MergeError QueryModel}
    {step : ClientFunction → Step}
    (merges : ∀ form, merge' form.redact = (merge form).map QueryModel.redact)
    (steps : ∀ run, step run.redact = (step run).redact) :
    p.redact.addLambda clause f.redact merge' step =
      (p.addLambda clause f merge step).redact := by
  have failure : p.redact.failure = p.failure := rfl
  unfold addLambda
  rw [failure, runsClientSide_redact, Lambda.client_redact, p.mergeLambda_redact clause f merges]
  split
  · rfl
  split
  · cases f.client with
    | error e => rfl
    | ok run =>
      show p.redact.addStep (step run.redact) = _
      rw [steps, addStep_redact]
  · cases p.mergeLambda clause f merge with
    | ok model => rfl
    | error e =>
      have rerun : (runnable? f.redact e).map step =
          ((runnable? f e).map step).map Step.redact := by
        rw [runnable?_redact, Option.map_map, Option.map_map]
        exact congrArg (Option.map · _) (funext steps)
      show p.redact.fallBack e ((runnable? f.redact e).map step) = _
      rw [rerun, fallBack_redact]

theorem addPlain_redact (merged : Except MergeError QueryModel) {step : Step}
    (same : step.redact = step) :
    p.redact.addPlain clause (merged.map QueryModel.redact) step =
      (p.addPlain clause merged step).redact := by
  have failure : p.redact.failure = p.failure := rfl
  have added := p.addStep_redact step
  have fallen (e : CompileError) := p.fallBack_redact e (some step)
  rw [Option.map_some, same] at fallen
  rw [same] at added
  unfold addPlain
  rw [failure, runsClientSide_redact]
  split
  · rfl
  split
  · exact added
  · cases merged with
    | ok model => rfl
    | error e => exact fallen _

/-- What an operation makes of a pipeline is redacted by redacting both. -/
theorem apply_redact (op : Operation) : p.redact.apply op.redact = (p.apply op).redact := by
  cases op with
  | select f =>
    refine p.addLambda_redact .select f (fun form => ?_) fun _ => rfl
    cases form with
    | expr e => exact p.model.select_redact e
    | join source => rfl
  | filter f =>
    refine p.addLambda_redact .filter f (fun form => ?_) fun _ => rfl
    cases form with
    | expr e => exact p.model.filter_redact e
    | join source => rfl
  | join f =>
    refine p.addLambda_redact .join f (fun form => ?_) fun _ => rfl
    cases form with
    | expr e => rfl
    | join source => exact p.model.join_redact source
  | sort f direction =>
    refine p.addLambda_redact .sort f (fun form => ?_) fun _ => rfl
    cases form with
    | expr e => exact p.model.sort_redact e direction
    | join source => rfl
  | distinct =>
    have same : Step.distinct.redact = .distinct := rfl
    have deduped := p.addPlain_redact .distinct p.model.dedupe same
    rwa [← QueryModel.dedupe_redact] at deduped
  | skip n =>
    have same : (Step.skip n).redact = .skip n := rfl
    exact p.addPlain_redact .window (.ok (p.model.skip n)) same
  | limit n =>
    have same : (Step.limit n).redact = .limit n := rfl
    exact p.addPlain_redact .window (.ok (p.model.limit n)) same

/-! ### Two runs -/

/-- What a pipeline has come to with the latest operation: merged, running on the client, failed. -/
inductive Course where
  | merged
  | onClient
  | failed
deriving Repr, DecidableEq

def course (p : Pipeline) : Course :=
  if p.failure.isSome then .failed else if p.runsClientSide then .onClient else .merged

def applyAll (p : Pipeline) (ops : List Operation) : Pipeline := ops.foldl apply p

/-- What becomes of each operation, one after the other. -/
def courses (p : Pipeline) : List Operation → List Course
  | [] => []
  | op :: ops => (p.apply op).course :: (p.apply op).courses ops

theorem course_redact : p.redact.course = p.course := by
  unfold course
  rw [runsClientSide_redact]
  rfl

theorem applyAll_redact (ops : List Operation) :
    p.redact.applyAll (ops.map Operation.redact) = (p.applyAll ops).redact := by
  unfold applyAll
  rw [List.foldl_map]
  exact List.foldl_hom redact apply_redact

theorem courses_redact (ops : List Operation) :
    p.redact.courses (ops.map Operation.redact) = p.courses ops := by
  induction ops generalizing p with
  | nil => rfl
  | cons op ops ih =>
    rw [List.map_cons, courses, courses, apply_redact, course_redact, ih]

/-- If two runs of the same operations on a pipeline capture different values of the same types,
what becomes of each operation is the same, failures and fallbacks have the same reasons, and the
queries, if there are any, are the same but for the values of the parameters. -/
theorem queries_alike [Libraries] {ops ops' : List Operation}
    (alike : ops.map Operation.redact = ops'.map Operation.redact) :
    p.courses ops = p.courses ops' ∧
    (p.applyAll ops).failure = (p.applyAll ops').failure ∧
    (p.applyAll ops).fallbacks = (p.applyAll ops').fallbacks ∧
    ∀ dialect q q', (p.applyAll ops).model.compile dialect = .ok q →
      (p.applyAll ops').model.compile dialect = .ok q' → q.Alike q' := by
  have same : (p.applyAll ops).redact = (p.applyAll ops').redact := by
    rw [← applyAll_redact, ← applyAll_redact, alike]
  have failure : (p.applyAll ops).redact.failure = (p.applyAll ops').redact.failure :=
    congrArg Pipeline.failure same
  have fallbacks : (p.applyAll ops).redact.fallbacks = (p.applyAll ops').redact.fallbacks :=
    congrArg Pipeline.fallbacks same
  refine ⟨?_, failure, fallbacks, ?_⟩
  · rw [← courses_redact, alike, courses_redact]
  · intro dialect q q' h h'
    exact QueryModel.alike_of_compile (congrArg Pipeline.model same) h h'

/-- `fun c => c.debt > limit` -/
def above (limit : Value) : Lambda :=
  .traced 1 [] (.binary .gt (.field (.param 0) "debt") (.captured "limit" limit))

/-- `fun c => (c.vip, label)` -/
def labelled (label : Value) : Lambda :=
  .traced 1 [] (.tuple (.field (.param 0) "vip") [.captured "label" label])

def aboveThenLabelled (limit label : Value) : List Operation :=
  [.filter (above limit), .select (labelled label), .skip 1]

open Libraries.Plain in
/-- An integer or a float for the limit and one label or another: the two texts are the same. -/
theorem queries_alike_of_limits :
    (aboveThenLabelled (.int 1) (.string "a")).map Operation.redact =
      (aboveThenLabelled (.float 2.5) (.string "'")).map Operation.redact ∧
    customers.courses (aboveThenLabelled (.int 1) (.string "a")) = [.merged, .merged, .merged] ∧
    customers.courses (aboveThenLabelled (.float 2.5) (.string "'")) = [.merged, .merged, .merged] ∧
    ∃ q q',
      (customers.applyAll (aboveThenLabelled (.int 1) (.string "a"))).model.compile .jpql = .ok q ∧
      (customers.applyAll (aboveThenLabelled (.float 2.5) (.string "'"))).model.compile .jpql =
        .ok q' ∧
      q.text = q'.text ∧ q.params.values = [.string "a", .int 1] ∧
      q'.params.values = [.string "'", .float 2.5] := by
  have alike : (aboveThenLabelled (.int 1) (.string "a")).map Operation.redact =
      (aboveThenLabelled (.float 2.5) (.string "'")).map Operation.redact := rfl
  obtain ⟨courses, -, -, queries⟩ := customers.queries_alike alike
  have merged : customers.courses (aboveThenLabelled (.int 1) (.string "a")) =
      [.merged, .merged, .merged] := rfl
  refine ⟨alike, merged, courses.symm.trans merged, _, _, rfl, rfl, ?_, rfl, rfl⟩
  exact (queries .jpql _ _ rfl rfl).text

end Pipeline
end EntityQuery
