import EntityQuery.Proofs.Lambda.Observation
import EntityQuery.Proofs.Pipeline.Loading

/-! Calls through one loader, one after another. Beside each stands what it asked the loader for and
what its own functions answered. A type that was found is not loaded again, and a failure is told to
be the executor's exactly if the executor answered with it during the call. -/
namespace EntityQuery

variable [Libraries] {σ : Type}

namespace EntityLoader

/-- What stands between a loader and the calls, after the uses of earlier ones: the cache has what
was found, and a failure is put down for a use that ended the call at hand, as the answer of a
function may. -/
structure Reports (dialect : Dialect) (history : List Use) (loader : EntityLoader)
    (uses : List Use) (calls : List Call) (ended : Option EvalError) : Prop where
  cached : Use.Cached dialect (history ++ uses)
  found : ∀ u ∈ history ++ uses, ∀ values, u.answer = .ok values →
    loader.cache.find? u.entity = some values
  source : ∀ entity values, loader.cache.find? entity = some values →
    ∃ u ∈ history ++ uses, u.IsLoad dialect ∧ u.entity = entity ∧ u.answer = .ok values
  failure : ∀ e, loader.failure = some e ↔ ∃ u ∈ uses, u.failure? = some e
  reason : ∀ e, loader.failure = some e → ∃ reason, ended = some (.entitySource reason)
  answers : ∀ c ∈ calls, ∀ e, c.answer = .error e → ended = some e ∧ loader.failure = none

namespace Reports

variable {dialect : Dialect} {history uses : List Use} {loader loader' : EntityLoader}
  {calls : List Call} {ended : Option EvalError}

theorem idle (h : Reports dialect history loader uses calls none) : loader.failure = none :=
  Option.eq_none_iff_forall_ne_some.2 fun e failed => by
    obtain ⟨_, ⟨⟩⟩ := h.reason e failed

theorem answered (h : Reports dialect history loader uses calls none) {c : Call} (hc : c ∈ calls)
    (e : EvalError) : c.answer ≠ .error e := fun failed => by
  obtain ⟨⟨⟩, -⟩ := h.answers c hc e failed

theorem quiet (h : Reports dialect history loader uses calls none) {u : Use} (hu : u ∈ uses)
    (e : ExecutorError) : u.failure? ≠ some e := fun failed => by
  obtain ⟨_, ⟨⟩⟩ := h.reason e ((h.failure e).2 ⟨u, hu, failed⟩)

theorem fail (h : Reports dialect history loader uses calls none) (e : EvalError) :
    Reports dialect history loader uses calls (some e) :=
  { h with
    reason := fun e failed => by rw [h.idle] at failed; cases failed
    answers := fun c hc e failed => absurd failed (h.answered hc e) }

/-- A call of a function goes on or ends with what the function answers. -/
theorem call (h : Reports dialect history loader uses calls none) {c : Call}
    (last : ∀ e, c.answer = .error e → ended = some e) :
    Reports dialect history loader uses (calls ++ [c]) ended :=
  { h with
    reason := fun e failed => by rw [h.idle] at failed; cases failed
    answers := List.forall_mem_append.2 ⟨fun c hc e failed => absurd failed (h.answered hc e),
      List.forall_mem_singleton.2 fun e failed => ⟨last e failed, h.idle⟩⟩ }

/-- What is in the cache is recalled, and what is not is loaded. -/
theorem origin_use (h : Reports dialect history loader uses calls none) {u : Use}
    (supplies : Supplies dialect loader u loader') :
    u.IsLoad dialect ∨ u.Recalls dialect (history ++ uses) := by
  cases cached : loader.cache.find? u.entity with
  | none => exact .inl (supplies.isLoad cached)
  | some values =>
    obtain ⟨unasked, answer⟩ := supplies.settled cached
    exact .inr ⟨unasked, values, answer, h.source u.entity values cached⟩

theorem cached_use (h : Reports dialect history loader uses calls none) {u : Use}
    (supplies : Supplies dialect loader u loader') :
    Use.Cached dialect (history ++ (uses ++ [u])) := by
  rw [← List.append_assoc]
  constructor
  · refine List.pairwise_append.2 ⟨h.cached.settled, List.pairwise_singleton _ _, ?_⟩
    intro earlier mem _ here values same found
    obtain rfl := List.mem_singleton.1 here
    exact supplies.settled (same ▸ h.found earlier mem values found)
  · refine List.forall_mem_append.2 ⟨fun v hv => ?_, List.forall_mem_singleton.2 ?_⟩
    · exact (h.cached.origin v hv).imp_right fun recalls => recalls.append [u]
    · exact (h.origin_use supplies).imp_right fun recalls => recalls.append [u]

/-- A use goes on or ends the call with what it found. -/
theorem use (h : Reports dialect history loader uses calls none) {u : Use}
    (supplies : Supplies dialect loader u loader')
    (last : ∀ e, u.answer = .error e → ended = some e) :
    Reports dialect history loader' (uses ++ [u]) calls ended where
  cached := h.cached_use supplies
  found := by
    rw [← List.append_assoc]
    refine List.forall_mem_append.2 ⟨fun v hv values answer => ?_, ?_⟩
    · exact supplies.find?_iff.2 (.inl (h.found v hv values answer))
    · exact List.forall_mem_singleton.2 fun values answer =>
        supplies.find?_iff.2 (.inr ⟨rfl, answer⟩)
  source entity values found := by
    rw [← List.append_assoc]
    obtain cached | ⟨rfl, answer⟩ := supplies.find?_iff.1 found
    · obtain ⟨v, mem, loaded⟩ := h.source entity values cached
      exact ⟨v, List.mem_append_left _ mem, loaded⟩
    · rcases h.origin_use supplies with loaded | ⟨-, values', answer', v, mem, loaded⟩
      · exact ⟨u, List.mem_append_right _ List.mem_cons_self, loaded, rfl, answer⟩
      · obtain rfl := Except.ok.inj (answer'.symm.trans answer)
        exact ⟨v, List.mem_append_left _ mem, loaded⟩
  failure e := by
    rw [supplies.failure h.idle]
    refine ⟨fun failed => ⟨u, List.mem_append_right _ List.mem_cons_self, failed⟩, ?_⟩
    rintro ⟨u', mem, failed⟩
    rcases List.mem_append.1 mem with earlier | here
    · exact absurd failed (h.quiet earlier e)
    · exact List.mem_singleton.1 here ▸ failed
  reason e failed := by
    obtain ⟨reason, answer⟩ := supplies.reason ((supplies.failure h.idle).symm.trans failed)
    exact ⟨reason, last _ answer⟩
  answers c hc e failed := absurd failed (h.answered hc e)

end Reports

/-- A call as it is observed: its result, the uses it made of the loader, and the calls of functions
of its own. -/
structure Account where
  result : Except QueryError Value
  uses : List Use
  calls : List Call

/-- A call fails with the executor's error exactly if the executor answered with it during the call,
and otherwise with the error that a function of its own answered, whichever it is. -/
structure Account.Faithful (a : Account) : Prop where
  failed : ∀ e, a.result = .error (.executor e) ↔ ∃ u ∈ a.uses, u.failure? = some e
  answered : ∀ c ∈ a.calls, ∀ e, c.answer = .error e → a.result = .error (.evaluation e)

/-- What is told of an evaluation, and the loader then. -/
def report (result : Except EvalError Value) (loader : EntityLoader) :
    Except QueryError Value × EntityLoader :=
  match result with
  | .error (.entitySource reason) =>
    let cause := match loader.failure with
      | some e => .executor e
      | none => .evaluation (.entitySource reason)
    (.error cause, { loader with failure := none })
  | result => (result.mapError .evaluation, loader)

theorem call_eq_report (engine : Engine σ) (loader : EntityLoader) (f : ClientFunction)
    (arguments : List Value) (session : Session σ) :
    loader.call engine f arguments session =
      let (result, calls, s, loader) :=
        f.call (entities engine) arguments session.calls (session.executor, loader)
      (report result loader, ⟨s, calls⟩) := by
  rw [call]
  rcases f.call (entities engine) arguments session.calls (session.executor, loader) with
    ⟨e | v, calls, s, loader'⟩
  · cases e <;> rfl
  · rfl

/-- The observation of a call. -/
def account (engine : Engine σ) (loader : EntityLoader) (f : ClientFunction)
    (arguments : List Value) (s : σ) : Account × σ × EntityLoader :=
  let (result, p) := (f.observed (watched engine) arguments).run
    { calls := [], source := (((s, loader), []), []) }
  let (result, loader) := report result p.source.1.1.2
  (⟨result, p.source.1.2, p.source.2⟩, p.source.1.1.1, loader)

section Told

variable {dialect : Dialect} {history uses : List Use} {loader : EntityLoader} {calls : List Call}

/-- Nothing of a failure is left for the next call. -/
theorem Reports.renew {ended : Option EvalError}
    (h : Reports dialect history loader uses calls ended) :
    Reports dialect (history ++ uses) { loader with failure := none } [] [] none where
  cached := by rw [List.append_nil]; exact h.cached
  found := by rw [List.append_nil]; exact h.found
  source := by rw [List.append_nil]; exact h.source
  failure e := iff_of_false nofun (by rintro ⟨_, ⟨⟩, _⟩)
  reason _ := nofun
  answers _ := nofun

theorem Reports.told_ok (h : Reports dialect history loader uses calls none) (v : Value) :
    let (result, loader') := report (.ok v) loader
    Account.Faithful ⟨result, uses, calls⟩ ∧
      Reports dialect (history ++ uses) loader' [] [] none := by
  have same : { loader with failure := none } = loader := by rw [← h.idle]
  refine ⟨⟨fun e => iff_of_false nofun ?_, fun c hc e failed => ?_⟩, same ▸ h.renew⟩
  · rintro ⟨u, mem, failed⟩
    exact h.quiet mem e failed
  · exact absurd failed (h.answered hc e)

omit [Libraries] in
theorem report_of_idle (idle : loader.failure = none) (e : EvalError) :
    report (.error e) loader = (.error (.evaluation e), { loader with failure := none }) := by
  have same : { loader with failure := none } = loader := by rw [← idle]
  cases e with
  | entitySource reason => rw [report, idle]
  | _ => exact same ▸ rfl

theorem Reports.told_error {e : EvalError}
    (h : Reports dialect history loader uses calls (some e)) :
    let (result, loader') := report (.error e) loader
    Account.Faithful ⟨result, uses, calls⟩ ∧
      Reports dialect (history ++ uses) loader' [] [] none := by
  cases failure : loader.failure with
  | none =>
    rw [report_of_idle failure]
    refine ⟨⟨fun cause => iff_of_false nofun fun used => ?_, fun c hc e' failed => ?_⟩, h.renew⟩
    · cases failure.symm.trans ((h.failure cause).2 used)
    · obtain ⟨ended, -⟩ := h.answers c hc e' failed
      rw [Option.some.inj ended]
  | some cause =>
    obtain ⟨reason, ended⟩ := h.reason cause failure
    obtain rfl := Option.some.inj ended
    rw [report, failure]
    refine ⟨⟨fun cause' => ?_, fun c hc e' failed => ?_⟩, h.renew⟩
    · rw [← h.failure cause', failure]
      simp
    · cases failure.symm.trans (h.answers c hc e' failed).2

end Told

/-- A call beside its observation. -/
structure Beside (dialect : Dialect) (history : List Use) (calls : List Invocation)
    (ended : Option EvalError) (p : Progress (σ × EntityLoader))
    (q : Progress (((σ × EntityLoader) × List Use) × List Call)) : Prop where
  memo : p.memo = q.memo
  source : p.source = q.source.1.1
  calls : p.calls = (q.source.2.map Call.toInvocation).reverse ++ calls
  reports : Reports dialect history p.source.2 q.source.1.2 q.source.2 ended

theorem observes_beside (engine : Engine σ) {history : List Use} {calls : List Invocation} :
    Evaluation.Observes (entities engine) (watched engine)
      (Beside engine.dialect history calls none)
      fun e => Beside engine.dialect history calls (some e) where
  memo _ _ h := h.memo
  remembered _ _ entry h := ⟨congrArg (entry :: ·) h.memo, h.source, h.calls, h.reports⟩
  related e _ _ h := ⟨h.memo, h.source, h.calls, h.reports.fail e⟩
  performed id f values p q h := by
    have logged : ⟨f.name, values⟩ :: p.calls =
        ((q.source.2 ++ [Call.mk ⟨f.name, values⟩ id (f.run values)]).map
          Call.toInvocation).reverse ++ calls := by
      simp [h.calls]
    rw [Evaluation.run_invoke, Evaluation.run_perform]
    dsimp only [Behaviour.own]
    revert logged
    cases f.run values with
    | ok v => exact fun logged => .ok rfl ⟨h.memo, h.source, logged, h.reports.call nofun⟩
    | error e =>
      exact fun logged => .error ⟨h.memo, h.source, logged,
        h.reports.call fun _ same => congrArg some (Except.error.inj same)⟩
  supplied entity p q h := by
    obtain ⟨memo, calls', ⟨s, loader⟩⟩ := p
    obtain ⟨memo', calls'', ⟨⟨⟨s', loader'⟩, uses⟩, log⟩⟩ := q
    obtain ⟨rfl, same, logged, reports⟩ := h
    obtain ⟨rfl, rfl⟩ := Prod.mk.inj same
    obtain ⟨u, s', loader', asked, taken, supplies⟩ := supplies_watched engine entity s loader uses
    rw [Evaluation.run_entities, Evaluation.run_entities, Evaluation.beside]
    dsimp only
    rw [asked, taken]
    dsimp only
    cases answer : u.answer with
    | ok values => exact .ok rfl ⟨rfl, rfl, logged, reports.use supplies fun e same => by
        cases answer.symm.trans same⟩
    | error e => exact .error ⟨rfl, rfl, logged, reports.use supplies fun e' same =>
        congrArg some (Except.error.inj (answer.symm.trans same))⟩

/-- A call of a function, and what others do to the executor before it. -/
structure Request (σ : Type) where
  meanwhile : σ → σ
  function : ClientFunction
  arguments : List Value

/-- Calls functions one after another through the same loader. -/
def callAll (engine : Engine σ) : EntityLoader → Session σ → List (Request σ) →
    (List (Except QueryError Value) × EntityLoader) × Session σ
  | loader, session, [] => (([], loader), session)
  | loader, session, r :: rest =>
    let ((result, loader), session) := loader.call engine r.function r.arguments
      { session with executor := r.meanwhile session.executor }
    let ((results, loader), session) := callAll engine loader session rest
    ((result :: results, loader), session)

/-- The observations of these calls. -/
def accounts (engine : Engine σ) : EntityLoader → σ → List (Request σ) →
    List Account × σ × EntityLoader
  | loader, s, [] => ([], s, loader)
  | loader, s, r :: rest =>
    let (a, s, loader) := account engine loader r.function r.arguments (r.meanwhile s)
    let (others, s, loader) := accounts engine loader s rest
    (a :: others, s, loader)

/-- The observation of a call is of the call that runs. It is faithful, and leaves nothing to the
next one but what is in the cache. -/
theorem call_eq_account (engine : Engine σ) {history : List Use} {loader : EntityLoader}
    (between : Reports engine.dialect history loader [] [] none) (f : ClientFunction)
    (arguments : List Value) (session : Session σ) :
    let (a, s, loader') := account engine loader f arguments session.executor
    loader.call engine f arguments session =
        ((a.result, loader'), ⟨s, (a.calls.map Call.toInvocation).reverse ++ session.calls⟩) ∧
      a.Faithful ∧ Reports engine.dialect (history ++ a.uses) loader' [] [] none := by
  have ends := (observes_beside engine).function f arguments
    { calls := session.calls, source := (session.executor, loader) }
    { calls := [], source := (((session.executor, loader), []), []) } ⟨rfl, rfl, rfl, between⟩
  rw [account, call_eq_report, ClientFunction.call]
  rcases hrun : (f.evaluation (entities engine) arguments).run
    { calls := session.calls, source := (session.executor, loader) } with
      ⟨r, memo, calls, s, loader'⟩
  rcases hobserved : (f.observed (watched engine) arguments).run
    { calls := [], source := (((session.executor, loader), []), []) } with
      ⟨r', memo', calls', ⟨⟨s', loader''⟩, uses⟩, log⟩
  rw [hrun, hobserved] at ends
  cases ends with
  | ok result kept =>
    obtain ⟨-, same, logged, reports⟩ := kept
    obtain ⟨rfl, rfl⟩ := Prod.mk.inj same
    obtain rfl : calls = _ := logged
    subst result
    exact ⟨rfl, reports.told_ok _⟩
  | error leaves =>
    obtain ⟨-, same, logged, reports⟩ := leaves
    obtain ⟨rfl, rfl⟩ := Prod.mk.inj same
    obtain rfl : calls = _ := logged
    exact ⟨rfl, reports.told_error⟩

/-- Over a whole sequence of calls the observation is of the calls that run, what was found is not
asked for again, and each call tells faithfully why it failed. -/
theorem callAll_eq_accounts (engine : Engine σ) {history : List Use} {loader : EntityLoader}
    (between : Reports engine.dialect history loader [] [] none) (requests : List (Request σ))
    (session : Session σ) :
    let (accounts, s, loader') := accounts engine loader session.executor requests
    callAll engine loader session requests =
        ((accounts.map Account.result, loader'),
          ⟨s, ((accounts.flatMap Account.calls).map Call.toInvocation).reverse ++ session.calls⟩) ∧
      Use.Cached engine.dialect (history ++ accounts.flatMap Account.uses) ∧
      ∀ a ∈ accounts, a.Faithful := by
  induction requests generalizing history loader session with
  | nil =>
    exact ⟨rfl, between.cached, List.forall_mem_nil _⟩
  | cons r rest ih =>
    have first := call_eq_account engine between r.function r.arguments
      { session with executor := r.meanwhile session.executor }
    dsimp only at first
    rcases made : account engine loader r.function r.arguments (r.meanwhile session.executor) with
      ⟨a, s, loader'⟩
    rw [made] at first
    obtain ⟨ran, faithful, between'⟩ := first
    have later := ih between' ⟨s, (a.calls.map Call.toInvocation).reverse ++ session.calls⟩
    rcases others : accounts engine loader' s rest with ⟨more, s', loader''⟩
    dsimp only at later
    rw [others] at later
    obtain ⟨ran', cached, faithful'⟩ := later
    rw [accounts, made]
    dsimp only
    rw [others, callAll, ran]
    dsimp only
    rw [ran']
    refine ⟨by simp, ?_, List.forall_mem_cons.2 ⟨faithful, faithful'⟩⟩
    rw [List.flatMap_cons, ← List.append_assoc]
    exact cached

theorem reports_empty (dialect : Dialect) : Reports dialect [] {} [] [] none where
  cached := ⟨.nil, List.forall_mem_nil _⟩
  found := List.forall_mem_nil _
  source _ _ := nofun
  failure _ := iff_of_false nofun (by rintro ⟨_, ⟨⟩, _⟩)
  reason _ := nofun
  answers := List.forall_mem_nil _

/-- Through one loader, whatever the executor answers and others do to it between the calls, each
entity type is found once and then recalled, and calls fail with the executor's error exactly if it
answered with that error meanwhile, never with one of an earlier call. -/
theorem callAll_faithful (engine : Engine σ) (requests : List (Request σ)) (session : Session σ) :
    let (accounts, s, loader) := accounts engine {} session.executor requests
    callAll engine {} session requests =
        ((accounts.map Account.result, loader),
          ⟨s, ((accounts.flatMap Account.calls).map Call.toInvocation).reverse ++ session.calls⟩) ∧
      Use.Cached engine.dialect (accounts.flatMap Account.uses) ∧
      ∀ a ∈ accounts, a.Faithful :=
  callAll_eq_accounts engine (reports_empty engine.dialect) requests session

end EntityLoader
end EntityQuery
