import EntityQuery.Proofs.Lambda.Matching
import EntityQuery.Proofs.Lambda.Scoping

/-! Evaluations observed. External functions may answer anything: from a state that they share with
the source of entities and that they may change, and differently at each place they are called from.
What they are asked and what they answer is taken down. With the answers of the functions themselves
an observed evaluation is the one that runs. -/
namespace EntityQuery

/-- A call with the operation that makes it, and the answer. -/
structure Call extends Invocation where
  id : Nat
  answer : Except EvalError Value

/-- What external functions answer where they are called, and what they leave behind. -/
abbrev Behaviour (τ : Type) :=
  Nat → ExternalFunction → List Value → τ → Except EvalError Value × τ

/-- The functions answer for themselves, and have no effect. -/
def Behaviour.own {τ : Type} : Behaviour τ := fun _ f values s => (f.run values, s)

namespace Evaluation

variable {τ υ : Type}

/-- A source beside a log. -/
def beside (source : EntitySource τ) : EntitySource (τ × List Call) := fun entity (s, log) =>
  let (result, s) := source entity s
  (result, s, log)

def perform (behaviour : Behaviour τ) (id : Nat) (f : ExternalFunction) (values : List Value) :
    Evaluation (τ × List Call) Value := do
  let p ← get
  let (answer, s) := behaviour id f values p.source.1
  set { p with source := (s, p.source.2 ++ [Call.mk ⟨f.name, values⟩ id answer]) }
  answer

def computeObserved (behaviour : Behaviour τ) (source : EntitySource τ) (arguments : List Value)
    (value : Nat → Evaluation (τ × List Call) Value) (id : Nat) :
    Op → Evaluation (τ × List Call) Value
  | .call (.external f) items => do perform behaviour id f (← items.mapM value)
  | op => compute (beside source) arguments value op

def valueObserved (behaviour : Behaviour τ) (source : EntitySource τ) (arguments : List Value)
    (ops : List Op) : Nat → Nat → Evaluation (τ × List Call) Value
  | 0, id => throw (.unscoped id)
  | fuel + 1, id => do
    match (← get).memo.lookup id with
    | some v => return v
    | none =>
      match ops[id]? with
      | none => throw (.unscoped id)
      | some op =>
        let v ← computeObserved behaviour source arguments
          (valueObserved behaviour source arguments ops fuel) id op
        modify fun p => { p with memo := (id, v) :: p.memo }
        return v

def observed (behaviour : Behaviour τ) (source : EntitySource τ) (t : Trace)
    (arguments : List Value) : Evaluation (τ × List Call) Value := do
  t.independentCalls.forM fun id =>
    discard (valueObserved behaviour source arguments t.ops t.ops.length id)
  valueObserved behaviour source arguments t.ops t.ops.length t.result

end Evaluation

/-- The evaluation of a function, observed. -/
def ClientFunction.observed {τ : Type} (f : ClientFunction) (source : EntitySource τ)
    (arguments : List Value) : Evaluation (τ × List Call) Value :=
  match f, arguments with
  | traced t, arguments => Evaluation.observed .own source t arguments
  | sealed run, v :: _ => Evaluation.perform .own 0 ⟨"opaque", fun _ => run v⟩ [v]
  | sealed _, [] => throw (.missingArgument 0)

namespace Evaluation

variable {τ υ : Type}

theorem computeObserved_of_internal {behaviour : Behaviour τ} {source : EntitySource τ}
    {arguments : List Value} {value : Nat → Evaluation (τ × List Call) Value} {id : Nat} {op : Op}
    (internal : op.external? = none) : computeObserved behaviour source arguments value id op =
      compute (beside source) arguments value op := by
  unfold computeObserved
  split
  · cases internal
  · rfl

theorem run_perform (behaviour : Behaviour τ) (id : Nat) (f : ExternalFunction)
    (values : List Value) (p : Progress (τ × List Call)) :
    (perform behaviour id f values).run p =
      let (answer, s) := behaviour id f values p.source.1
      (answer, { p with source := (s, p.source.2 ++ [Call.mk ⟨f.name, values⟩ id answer]) }) := by
  have got : (get : Evaluation (τ × List Call) _).run p = (.ok p, p) := rfl
  refine (run_bind_ok got).trans ?_
  rcases behaviour id f values p.source.1 with ⟨answer, s⟩
  cases answer <;> rfl

/-! ### The evaluation that runs -/

/-- An evaluation can go on beside its observation: both remember alike, and a call or a stream of
entities leads from related progress to related progress, or to a failure. -/
structure Observes (source : EntitySource τ) (source' : EntitySource υ)
    (rel : Progress τ → Progress (υ × List Call) → Prop)
    (left : EvalError → Progress τ → Progress (υ × List Call) → Prop) : Prop where
  memo : ∀ p q, rel p q → p.memo = q.memo
  remembered : ∀ p q entry, rel p q →
    rel { p with memo := entry :: p.memo } { q with memo := entry :: q.memo }
  related : ∀ e p q, rel p q → left e p q
  performed : ∀ id (f : ExternalFunction) values, Simulates rel left Eq
    (invoke f.name values (f.run values)) (perform .own id f values)
  supplied : ∀ entity,
    Simulates rel left Eq (entities source entity) (entities (beside source') entity)

namespace Observes

variable {source : EntitySource τ} {source' : EntitySource υ}
  {rel : Progress τ → Progress (υ × List Call) → Prop}
  {left : EvalError → Progress τ → Progress (υ × List Call) → Prop}
  (observes : Observes source source' rel left)
include observes

theorem computeObserved (arguments : List Value) {value : Nat → Evaluation τ Value}
    {value' : Nat → Evaluation (υ × List Call) Value}
    (inputs : ∀ id, Simulates rel left Eq (value id) (value' id)) (id : Nat) (op : Op) :
    Simulates rel left Eq (compute source arguments value op)
      (computeObserved .own source' arguments value' id op) := by
  cases external : op.external? with
  | some f =>
    obtain ⟨items, rfl⟩ := Op.external?_eq_some external
    refine simulates_bind (simulates_mapM items fun id _ => inputs id) fun values _ same => ?_
    exact same ▸ observes.performed id f values
  | none =>
    rw [computeObserved_of_internal external]
    exact simulates_compute observes.related arguments op
      (fun _ entity _ => observes.supplied entity) (fun some => by simp [external] at some) inputs

theorem valueObserved (arguments : List Value) (ops : List Op) (fuel id : Nat) :
    Simulates rel left Eq (valueOf source arguments ops fuel id)
      (valueObserved .own source' arguments ops fuel id) := by
  induction fuel generalizing id with
  | zero => exact simulates_throw observes.related _
  | succ fuel ih =>
    refine simulates_bind (Q := rel) (fun p q h => .ok h h) fun p q h => ?_
    rw [observes.memo p q h]
    cases q.memo.lookup id with
    | some v => exact simulates_pure rfl
    | none =>
      cases ops[id]? with
      | none => exact simulates_throw observes.related _
      | some op =>
        have computed := observes.computeObserved arguments ih id op
        refine simulates_bind computed fun a b hab => ?_
        subst hab
        exact simulates_bind (Q := fun _ _ => True)
          (fun p q h => .ok trivial (observes.remembered p q _ h)) fun _ _ _ => simulates_pure rfl

theorem observed (t : Trace) (arguments : List Value) :
    Simulates rel left Eq (ofTrace source t arguments) (observed .own source' t arguments) := by
  have computed (id : Nat) := observes.valueObserved arguments t.ops t.ops.length id
  have independent (ids : List Nat) : Simulates rel left (fun _ _ => True)
      (ids.forM fun id => discard (valueOf source arguments t.ops t.ops.length id))
      (ids.forM fun id => discard
        (Evaluation.valueObserved .own source' arguments t.ops t.ops.length id)) := by
    induction ids with
    | nil => exact simulates_pure trivial
    | cons id ids ih =>
      refine simulates_bind (Q := fun _ _ => True) ?_ fun _ _ _ => ih
      exact simulates_bind (computed id) fun _ _ _ => simulates_pure trivial
  exact simulates_bind (independent _) fun _ _ _ => computed t.result

theorem function (f : ClientFunction) (arguments : List Value) :
    Simulates rel left Eq (f.evaluation source arguments) (f.observed source' arguments) := by
  cases f with
  | traced t => exact observes.observed t arguments
  | sealed run =>
    cases arguments with
    | nil => exact simulates_throw observes.related _
    | cons v rest => exact observes.performed 0 ⟨"opaque", fun _ => run v⟩ [v]

end Observes

theorem run_invoke (name : String) (values : List Value) (answer : Except EvalError Value)
    (p : Progress τ) : (invoke name values answer).run p =
      (answer, { p with calls := ⟨name, values⟩ :: p.calls }) := by
  cases answer <;> rfl

/-- The log has the calls that were made since `calls`. -/
def Logs (calls : List Invocation) (p : Progress τ) (q : Progress (τ × List Call)) : Prop :=
  p.memo = q.memo ∧ p.source = q.source.1 ∧
    p.calls = (q.source.2.map Call.toInvocation).reverse ++ calls

variable {calls : List Invocation}

theorem simulates_perform (id : Nat) (f : ExternalFunction) (values : List Value) :
    Simulates (Logs calls) (fun _ => Logs (τ := τ) calls) Eq (invoke f.name values (f.run values))
      (perform .own id f values) := by
  intro p q h
  have logged : Logs calls { p with calls := ⟨f.name, values⟩ :: p.calls }
      { q with
        source := (q.source.1, q.source.2 ++ [Call.mk ⟨f.name, values⟩ id (f.run values)]) } :=
    ⟨h.1, h.2.1, by simp [h.2.2]⟩
  rw [run_invoke, run_perform]
  dsimp only [Behaviour.own]
  revert logged
  cases f.run values with
  | ok v => exact .ok rfl
  | error e => exact fun logged => .error logged

theorem observes_logs (source : EntitySource τ) :
    Observes source source (Logs calls) fun _ => Logs calls where
  memo _ _ h := h.1
  remembered _ _ _ h := ⟨congrArg _ h.1, h.2⟩
  related _ _ _ h := h
  performed := simulates_perform
  supplied entity p q h := by
    rw [run_entities, run_entities, beside, ← h.2.1]
    dsimp only
    cases (source entity p.source).1 with
    | ok vs => exact .ok rfl ⟨h.1, rfl, h.2.2⟩
    | error e => exact .error ⟨h.1, rfl, h.2.2⟩

end Evaluation

/-- Values that were computed, each with the operation. -/
abbrev Memo := List (Nat × Value)

def Memo.value? (memo : Memo) (id : Nat) : Option Value := memo.lookup id

/-- What came of an observed evaluation: the values that were computed, and the calls, in order. -/
structure Observation where
  result : Except EvalError Value
  log : List Call
  memo : Memo

def Trace.observe {τ : Type} (t : Trace) (behaviour : Behaviour τ) (source : EntitySource τ)
    (arguments : List Value) (s : τ) : Observation :=
  let (result, p) :=
    (Evaluation.observed behaviour source t arguments).run { calls := [], source := (s, []) }
  ⟨result, p.source.2, p.memo⟩

/-- With the answers of the functions themselves the observation is of the evaluation that runs: the
same result, the same values computed and the same calls. -/
theorem Trace.run_ofTrace {τ : Type} (t : Trace) (source : EntitySource τ) (arguments : List Value)
    (calls : List Invocation) (s : τ) :
    let o := t.observe .own source arguments s
    let r := (Evaluation.ofTrace source t arguments).run { calls, source := s }
    r.1 = o.result ∧ r.2.memo = o.memo ∧
      r.2.calls = (o.log.map Call.toInvocation).reverse ++ calls := by
  intro o r
  obtain ⟨result, memo, -, calls⟩ := Evaluation.matches_iff.2
    ((Evaluation.observes_logs source).observed t arguments)
    { calls, source := s } { calls := [], source := (s, []) } ⟨rfl, rfl, rfl⟩
  exact ⟨result.eq, memo, calls⟩

end EntityQuery
