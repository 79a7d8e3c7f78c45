import EntityQuery.Libraries.Plain
import EntityQuery.Proofs.Executor.HandleLog
import EntityQuery.Proofs.Pipeline.Navigation
import EntityQuery.Proofs.Pipeline.Requests

/-! Arities of lambdas. A lambda is held against the arity that its clause supplies when it is
extracted to be merged, and then only. One that does not fit is refused before anything runs, strict
or not, as long as nothing runs on the client; from the first step on the client it becomes a step
like any other, and an aggregate takes it after the elements have been read. -/
namespace EntityQuery

variable {σ : Type}

/-- What is asked of an executor stays on its log. -/
theorem Executor.guards_logged (executor : Executor σ) (n : Nat) :
    executor.logged.Guards (fun _ => True) fun t => n < t.2.length := by
  have longer (log : List HandleEvent) (event : HandleEvent) (h : n < log.length) :
      n < (log ++ [event]).length :=
    Nat.lt_of_lt_of_le h (List.sublist_append_left log [event]).length_le
  exact ⟨fun t ht => ⟨trivial, longer t.2 _ ht⟩, fun _ _ _ t ht => ⟨trivial, longer t.2 _ ht⟩,
    fun _ t ht => ⟨trivial, longer t.2 _ ht⟩⟩

theorem ClientFunction.permitted_all [Libraries] (dialect : Dialect) (f : ClientFunction) :
    f.Permitted (fun _ => True) dialect :=
  fun _ _ _ _ _ => trivial

theorem Feed.permitted_all [Libraries] {dialect : Dialect} (feed : Feed) :
    feed.Permitted (fun _ => True) dialect where
  stages _ _ f _ := f.permitted_all dialect
  origin := by cases feed.origin <;> simp [Origin.Permitted, CompiledQuery.Permitted]

namespace Pipeline

variable {p : Pipeline} {clause : Clause} {f : Lambda} {op : Operation}

/-- The clause of an operation that is given a lambda, and the lambda. -/
def Operation.lambda? : Operation → Option (Clause × Lambda)
  | select f => some (.select, f)
  | filter f => some (.filter, f)
  | join f => some (.join, f)
  | sort f _ => some (.sort, f)
  | distinct | skip _ | limit _ => none

/-- The clause supplies as many arguments as the lambda takes. -/
def Accepts (clause : Clause) (f : Lambda) : Prop := f.arity = expectedArity clause f

/-- Besides the two arguments of a join there is one. -/
theorem expectedArity_of_not_accepts (h : ¬Accepts clause f) : expectedArity clause f = 1 := by
  unfold Accepts expectedArity at *
  split
  · next two => simp [two] at h
  · rfl

/-- What is sealed takes one argument. -/
theorem isSealed_of_not_accepts (h : ¬Accepts clause f) : f.isSealed = false := by
  cases f with
  | traced => rfl
  | sealed run => exact absurd (expectedArity_of_not_accepts h).symm h

/-- What cannot be prepared for the client has leaked a handle. -/
theorem client_of_not_accepts (h : ¬Accepts clause f) :
    (∃ run, f.client = .ok run) ∨ f.client = .error .foreignHandle := by
  cases f with
  | sealed run => exact absurd (expectedArity_of_not_accepts h).symm h
  | traced arity preparation body =>
    rcases hrun : (Lambda.recordBody arity preparation body).run {} with ⟨result, recording⟩
    have extracted : (Lambda.traced arity preparation body).extract =
        if recording.leaked then .error .foreignHandle else .ok ⟨arity, recording.ops, result⟩ := by
      rw [Lambda.extract, hrun]
    rw [Lambda.client, extracted]
    · split
      · exact .inr rfl
      · exact .inl ⟨_, rfl⟩
    · nofun

theorem queryForm_of_not_accepts (h : ¬Accepts clause f) :
    p.queryForm clause f =
      .error (.extraction clause (ExtractError.arity 1 f.arity).message) := by
  have mismatch : f.extractWithArity (expectedArity clause f) =
      .error (.arity (expectedArity clause f) f.arity) := if_neg h
  rw [queryForm, mismatch, expectedArity_of_not_accepts h]
  rfl

theorem mergeLambda_of_not_accepts (h : ¬Accepts clause f)
    (merge : QueryForm → Except MergeError QueryModel) :
    p.mergeLambda clause f merge =
      .error (.extraction clause (ExtractError.arity 1 f.arity).message) := by
  rw [mergeLambda, queryForm_of_not_accepts h]
  rfl

/-- A lambda that was not extracted does not run either. -/
theorem runnable?_of_not_accepts (h : ¬Accepts clause f) (reason : String) :
    runnable? f (.extraction clause reason) = none := by
  simp [runnable?, isExtraction, isSealed_of_not_accepts h]

/-! ### Operations -/

/-- The operations with a lambda differ in how they merge and in the step that they are. -/
theorem apply_eq_addLambda (h : op.lambda? = some (clause, f)) :
    ∃ merge make, p.apply op = p.addLambda clause f merge make ∧ op.step = f.client.map make := by
  cases op <;> cases h <;> exact ⟨_, _, rfl, rfl⟩

/-- Strict or not, a lambda that does not fit its clause is refused while clauses merge. -/
theorem apply_of_not_accepts (good : p.failure = none) (merging : p.runsClientSide = false)
    (h : op.lambda? = some (clause, f)) (mismatch : ¬Accepts clause f) :
    p.apply op = p.fail (notExtracted clause (.arity 1 f.arity)) := by
  obtain ⟨merge, make, applied, -⟩ := apply_eq_addLambda (p := p) h
  rw [applied, addLambda, mergeLambda_of_not_accepts mismatch]
  simp only [good, merging, runnable?_of_not_accepts mismatch]
  rfl

theorem apply_of_client_error {e : ExtractError} (good : p.failure = none)
    (running : p.runsClientSide) (h : op.lambda? = some (clause, f)) (client : f.client = .error e) :
    p.apply op = p.fail (notExtracted clause e) := by
  obtain ⟨merge, make, applied, -⟩ := apply_eq_addLambda (p := p) h
  rw [applied, addLambda]
  simp [good, running, client]

/-! ### Aggregates -/

variable {kind : Aggregate}

theorem aggregate_of_not_accepts [Libraries] (good : p.failure = none)
    (merging : p.runsClientSide = false) (mismatch : ¬Accepts .aggregate f)
    (executor : Executor σ) (session : Session σ) :
    p.aggregate executor kind (some f) session =
      (.error (notExtracted .aggregate (.arity 1 f.arity)), session) := by
  have refused : p.aggregateModel kind (some f) =
      .error (.extraction .aggregate (ExtractError.arity 1 f.arity).message) :=
    mergeLambda_of_not_accepts mismatch _
  unfold aggregate
  simp [good, merging, refused, runnable?_of_not_accepts mismatch]
  rfl

/-- Opening the query puts the handle that it is asked for on the log. -/
theorem length_lt_feed [Libraries] {q : CompiledQuery} (compiled : p.compile = .ok q)
    (executor : Executor σ) (session : Session (σ × List HandleEvent)) :
    session.executor.2.length < (p.feed executor.logged session).2.executor.2.length := by
  have started (event : HandleEvent) :
      session.executor.2.length < (session.executor.2 ++ [event]).length := by simp
  unfold feed
  rw [compiled]
  simp only [bind, StateT.bind, Session.onExecutor, Cursor.start, Executor.logged]
  rcases executor.acquire session.executor.1 with ⟨_ | handle, s⟩
  · exact started _
  · exact started _

/-- The elements are read only after the executor was asked for a handle. -/
theorem length_lt_toList [Libraries] {q : CompiledQuery} (compiled : p.compile = .ok q)
    (executor : Executor σ) (session : Session (σ × List HandleEvent)) :
    session.executor.2.length < (p.toList executor.logged session).2.executor.2.length := by
  have opened := length_lt_feed compiled executor session
  unfold toList collectAs
  simp only [bind, StateT.bind]
  rcases hfeed : p.feed executor.logged session with ⟨_ | feed, session'⟩
  · rw [hfeed] at opened
    exact opened
  · rw [hfeed] at opened
    have guards : (p.engine executor.logged).executor.Guards _ _ :=
      executor.guards_logged session.executor.2.length
    exact (Feed.maintains_collect guards _ feed feed.permitted_all session' opened).2

theorem length_lt_foldElements [Libraries] {q : CompiledQuery} (compiled : p.compile = .ok q)
    (executor : Executor σ) (session : Session (σ × List HandleEvent)) (f : Option Lambda) :
    session.executor.2.length <
      (p.foldElements executor.logged kind f session).2.executor.2.length := by
  have listed := length_lt_toList compiled executor session
  unfold foldElements
  simp only [bind, StateT.bind]
  rcases hlist : p.toList executor.logged session with ⟨_ | elements, session'⟩
  · rw [hlist] at listed
    exact listed
  rw [hlist] at listed
  cases f with
  | none => exact listed
  | some f =>
    dsimp only
    cases hf : f.client with
    | error e => exact listed
    | ok run =>
      have guards := executor.guards_logged session.executor.2.length
      exact (maintains_mapValues (p := p) guards (run.permitted_all p.dialect) {} elements
        session' listed).2

/-- On the client a lambda that does not fit is not what an aggregate fails for, unless the executor
was called before. -/
theorem aggregate_ne_of_runsClientSide [Libraries] (good : p.failure = none)
    (running : p.runsClientSide) (executor : Executor σ) (session : Session (σ × List HandleEvent))
    (reason : String) :
    p.aggregate executor.logged kind (some f) session ≠
      (.error (.compile (.extraction .aggregate reason)), session) := by
  have folded : p.aggregate executor.logged kind (some f) session =
      p.foldElements executor.logged kind (some f) session := by
    unfold aggregate
    simp [good, running]
  rw [folded]
  cases compiled : p.compile with
  | ok q =>
    intro same
    have longer : _ < (p.foldElements executor.logged kind (some f) session).2.executor.2.length :=
      length_lt_foldElements compiled executor session (some f)
    rw [same] at longer
    exact Nat.lt_irrefl _ longer
  | error e =>
    obtain ⟨cause, failed, rfl⟩ : ∃ cause, p.model.compile p.dialect = .error cause ∧
        e = .compile cause := by
      rw [compile, good] at compiled
      cases hmodel : p.model.compile p.dialect with
      | ok q => rw [hmodel] at compiled; cases compiled
      | error cause =>
        rw [hmodel] at compiled
        exact ⟨cause, rfl, (Except.error.inj compiled).symm⟩
    have answered : p.foldElements executor.logged kind (some f) session =
        (.error (.compile cause), session) := by
      unfold foldElements toList collectAs feed
      rw [compiled]
      rfl
    rw [answered]
    rintro ⟨⟩
    obtain ⟨cause, -, other⟩ | ⟨name, -, other⟩ := QueryModel.compile_error failed
    · cases other
    · cases other

/-! ### The verdict -/

/-- Of a lambda that does not fit its clause. As long as nothing runs on the client, an operation
records that it was not extracted, everything that is asked for afterwards answers with that and
leaves the executor alone, and so does an aggregate. Afterwards an operation adds its step, unless
the lambda cannot run for another reason, and no aggregate refuses it without calling the
executor. -/
theorem arity_verdict [Libraries] (good : p.failure = none) (f : Lambda) :
    (∀ op clause, Operation.lambda? op = some (clause, f) → ¬Accepts clause f →
      (p.runsClientSide = false →
        p.apply op = p.fail (notExtracted clause (.arity 1 f.arity))) ∧
      ((∃ reason, (p.apply op).failure = some (.compile (.extraction clause reason))) ↔
        p.runsClientSide = false ∨ f.client = .error .foreignHandle) ∧
      (∀ e, (p.apply op).failure = some e → ∀ p', Becomes (p.apply op) p' →
        ∀ {σ α : Type} (t : Terminal α) (executor : Executor σ) (session : Session σ),
          t.run p' executor session = (.error e, session)) ∧
      (p.runsClientSide → ∀ step, op.step = .ok step → p.apply op = p.addStep step)) ∧
    (¬Accepts .aggregate f → ∀ kind,
      (p.runsClientSide = false → ∀ {σ : Type} (executor : Executor σ) (session : Session σ),
        p.aggregate executor kind (some f) session =
          (.error (notExtracted .aggregate (.arity 1 f.arity)), session)) ∧
      (p.runsClientSide → ∀ {σ : Type} (executor : Executor σ)
        (session : Session (σ × List HandleEvent)) (reason : String),
          p.aggregate executor.logged kind (some f) session ≠
            (.error (.compile (.extraction .aggregate reason)), session))) := by
  refine ⟨fun op clause h mismatch => ⟨?_, ?_, ?_, ?_⟩, fun mismatch kind => ⟨?_, ?_⟩⟩
  · exact fun merging => apply_of_not_accepts good merging h mismatch
  · cases running : p.runsClientSide with
    | false =>
      have refused := apply_of_not_accepts good running h mismatch
      simp [refused, fail, good, notExtracted]
    | true =>
      rcases client_of_not_accepts mismatch with ⟨run, client⟩ | leaked
      · obtain ⟨merge, make, -, stepped⟩ := apply_eq_addLambda (p := p) h
        have client' : op.step = .ok (make run) := by rw [stepped, client]; rfl
        simp [apply_of_runsClientSide good running client', addStep, good, client]
      · have refused := apply_of_client_error good running h leaked
        simp [refused, fail, good, notExtracted, leaked]
  · intro e failed p' later σ α t executor session
    refine t.run_of_failure ?_ executor session
    have same : SameButHints (p.apply op) p' := later.sameButHints (by simp [failed])
    rw [same]
    exact failed
  · exact fun running step client => apply_of_runsClientSide good running client
  · exact fun merging _ executor session =>
      aggregate_of_not_accepts good merging mismatch executor session
  · exact fun running _ executor session reason =>
      aggregate_ne_of_runsClientSide good running executor session reason

/-- `fun c d => c.debt` -/
def owedByFirst : Lambda := .traced 2 [] (.field (.param 0) "debt")

theorem not_accepts_owedByFirst (h : clause ≠ .join) : ¬Accepts clause owedByFirst := by
  simp [Accepts, expectedArity, h, owedByFirst, Lambda.arity]

/-- All customers, who may be worked on client-side. -/
def lenientCustomers : Pipeline :=
  Provider.all { metamodel := debtors, hints := { strict := false } } "Customer"

open Libraries.Plain in
theorem arity_verdict_lenientCustomers :
    lenientCustomers.model.hints.strict = false ∧
    (lenientCustomers.select owedByFirst).failure =
      some (notExtracted .select (.arity 1 2)) ∧
    (Terminal.toList.run (lenientCustomers.select owedByFirst) twoCustomersExecutor.logged
      ⟨((), []), []⟩) = (.error (notExtracted .select (.arity 1 2)), ⟨((), []), []⟩) ∧
    (lenientCustomers.aggregate twoCustomersExecutor.logged .sum (some owedByFirst)
      ⟨((), []), []⟩) = (.error (notExtracted .aggregate (.arity 1 2)), ⟨((), []), []⟩) := by
  obtain ⟨operations, aggregates⟩ := arity_verdict (p := lenientCustomers) rfl owedByFirst
  obtain ⟨refused, -, answers, -⟩ :=
    operations (.select owedByFirst) .select rfl (not_accepts_owedByFirst (by decide))
  have failed : (lenientCustomers.select owedByFirst).failure =
      some (notExtracted .select (.arity 1 2)) := congrArg failure (refused rfl)
  exact ⟨rfl, failed, answers _ failed _ .refl .toList twoCustomersExecutor.logged _,
    (aggregates (not_accepts_owedByFirst (by decide)) .sum).1 rfl twoCustomersExecutor.logged _⟩

open Libraries.Plain in
/-- Behind a step on the client the same lambda is mapped and summed. -/
theorem unjudged_of_runsClientSide :
    let p := lenientCustomers.select (.sealed .ok)
    Reachable p ∧ p.failure = none ∧ p.runsClientSide ∧
    ¬Accepts .select owedByFirst ∧ (p.select owedByFirst).failure = none ∧
    (Terminal.toList.run (p.select owedByFirst) twoCustomersExecutor ⟨(), []⟩).1 =
      .ok [.int 0, .int 1] ∧
    ¬Accepts .aggregate owedByFirst ∧
    (p.aggregate twoCustomersExecutor .sum (some owedByFirst) ⟨(), []⟩).1 = .ok (.int 1) := by
  exact ⟨⟨_, _, .tail .refl (.operation (.select (.sealed .ok)))⟩, rfl, rfl,
    not_accepts_owedByFirst (by decide), rfl, rfl, not_accepts_owedByFirst (by decide), rfl⟩

end Pipeline
end EntityQuery
