import EntityQuery.Proofs.Lambda.Yields

/-! Two runs of a lambda side by side. Over sources that supply entities alike, evaluations go the
same way step by step: they have the same results and the same failures, and lead from related
progress to related progress. Where they fail, the progress that they leave may be in a relation of
its own. -/
namespace EntityQuery

/-- The entity types that a function streams. -/
def ClientFunction.Streams (f : ClientFunction) (entity : String) : Prop :=
  ∃ t provider, f = .traced t ∧ .streamEntity provider entity ∈ t.ops

namespace Evaluation

variable {τ υ α β γ δ : Type}

/-- The same failure, or successes in the given relation. -/
def SameOutcome (Q : α → β → Prop) : Except EvalError α → Except EvalError β → Prop
  | .ok a, .ok b => Q a b
  | .error e, .error e' => e = e'
  | _, _ => False

theorem SameOutcome.eq {r r' : Except EvalError α} (h : SameOutcome Eq r r') : r = r' := by
  cases r <;> cases r' <;> simp_all [SameOutcome]

theorem sameOutcome_refl (r : Except EvalError α) : SameOutcome Eq r r := by
  cases r <;> rfl

/-- Evaluations that go the same way from related progress to related progress. -/
def Matches (rel : Progress τ → Progress υ → Prop) (Q : α → β → Prop) (x : Evaluation τ α)
    (y : Evaluation υ β) : Prop :=
  ∀ p q, rel p q → SameOutcome Q (x.run p).1 (y.run q).1 ∧ rel (x.run p).2 (y.run q).2

/-- Two evaluations at their ends: successes after which progress is still related, or the same
failure, with progress that it may leave. -/
inductive Ends (rel : Progress τ → Progress υ → Prop)
    (left : EvalError → Progress τ → Progress υ → Prop) (Q : α → β → Prop) :
    Except EvalError α × Progress τ → Except EvalError β × Progress υ → Prop
  | ok {a : α} {b : β} {p : Progress τ} {q : Progress υ} (result : Q a b) (kept : rel p q) :
    Ends rel left Q (.ok a, p) (.ok b, q)
  | error {e : EvalError} {p : Progress τ} {q : Progress υ} (leaves : left e p q) :
    Ends rel left Q (.error e, p) (.error e, q)

/-- Evaluations that go the same way, where a failure may leave other progress than related. -/
def Simulates (rel : Progress τ → Progress υ → Prop)
    (left : EvalError → Progress τ → Progress υ → Prop) (Q : α → β → Prop)
    (x : Evaluation τ α) (y : Evaluation υ β) : Prop :=
  ∀ p q, rel p q → Ends rel left Q (x.run p) (y.run q)

variable {rel : Progress τ → Progress υ → Prop}
  {left : EvalError → Progress τ → Progress υ → Prop} {Q : α → β → Prop} {R : γ → δ → Prop}

/-- Evaluations match if they go the same way and failures too leave related progress. -/
theorem matches_iff {x : Evaluation τ α} {y : Evaluation υ β} :
    Matches rel Q x y ↔ Simulates rel (fun _ => rel) Q x y := by
  constructor
  · intro h p q hrel
    obtain ⟨outcome, related⟩ := h p q hrel
    rcases hx : x.run p with ⟨r, p'⟩
    rcases hy : y.run q with ⟨r', q'⟩
    rw [hx, hy] at outcome related
    match r, r', outcome with
    | .ok a, .ok b, result => exact .ok result related
    | .error e, .error _, rfl => exact .error related
  · intro h p q hrel
    have ends := h p q hrel
    rcases hx : x.run p with ⟨r, p'⟩
    rcases hy : y.run q with ⟨r', q'⟩
    rw [hx, hy] at ends
    cases ends with
    | ok result kept => exact ⟨result, kept⟩
    | error leaves => exact ⟨rfl, leaves⟩

theorem simulates_pure {a : α} {b : β} (h : Q a b) : Simulates rel left Q (pure a) (pure b) :=
  fun _ _ hrel => .ok h hrel

theorem simulates_bind {x : Evaluation τ α} {y : Evaluation υ β} {f : α → Evaluation τ γ}
    {g : β → Evaluation υ δ} (hxy : Simulates rel left Q x y)
    (hfg : ∀ a b, Q a b → Simulates rel left R (f a) (g b)) :
    Simulates rel left R (x >>= f) (y >>= g) := by
  intro p q hrel
  have ends := hxy p q hrel
  rcases hx : x.run p with ⟨r, p'⟩
  rcases hy : y.run q with ⟨r', q'⟩
  rw [hx, hy] at ends
  cases ends with
  | ok result kept =>
    rw [run_bind_ok hx, run_bind_ok hy]
    exact hfg _ _ result p' q' kept
  | error leaves =>
    rw [run_bind_error hx, run_bind_error hy]
    exact .error leaves

theorem simulates_mapM {f : γ → Evaluation τ α} {g : γ → Evaluation υ α} (l : List γ)
    (h : ∀ c ∈ l, Simulates rel left Eq (f c) (g c)) :
    Simulates rel left Eq (l.mapM f) (l.mapM g) := by
  induction l with
  | nil => exact simulates_pure rfl
  | cons c l ih =>
    rw [List.mapM_cons, List.mapM_cons]
    refine simulates_bind (h c List.mem_cons_self) fun a b hab => ?_
    refine simulates_bind (ih fun c hc => h c (List.mem_cons_of_mem _ hc)) fun as bs has => ?_
    exact simulates_pure (by rw [hab, has])

theorem run_entities (source : EntitySource τ) (entity : String) (p : Progress τ) :
    (entities source entity).run p = ((source entity p.source).1.map .list,
      { p with source := (source entity p.source).2 }) := by
  have got : (get : Evaluation τ _).run p = (.ok p, p) := rfl
  refine (run_bind_ok got).trans ?_
  rcases source entity p.source with ⟨r, s⟩
  cases r <;> rfl

section Failing

variable (related : ∀ e p q, rel p q → left e p q)
include related

theorem simulates_throw (e : EvalError) : Simulates rel left Q (throw e) (throw e) :=
  fun _ _ hrel => .error (related e _ _ hrel)

theorem simulates_lift (r : Except EvalError α) : Simulates rel left Eq (liftM r) (liftM r) := by
  intro p q hrel
  cases r with
  | ok a => exact .ok rfl hrel
  | error e => exact .error (related e _ _ hrel)

/-- Results of operations on values do not depend on progress. -/
theorem simulates_call {op : α → Except EvalError β} {x : Evaluation τ α} {y : Evaluation υ α}
    (h : Simulates rel left Eq x y) :
    Simulates rel left Eq (x >>= fun a => liftM (op a)) (y >>= fun a => liftM (op a)) :=
  simulates_bind h fun a _ hab => hab ▸ simulates_lift related (op a)

section Compute

variable {source : EntitySource τ} {source' : EntitySource υ} {value : Nat → Evaluation τ Value}
  {value' : Nat → Evaluation υ Value}

/-- An operation goes the same way when the entities that it streams are supplied alike, the calls
that it makes are taken down alike and its inputs go the same way. -/
theorem simulates_compute (arguments : List Value) (op : Op)
    (supplied : ∀ provider entity, op = .streamEntity provider entity →
      Simulates rel left Eq (entities source entity) (entities source' entity))
    (logged : op.external?.isSome → ∀ p q entry, rel p q →
      rel { p with calls := entry :: p.calls } { q with calls := entry :: q.calls })
    (inputs : ∀ id, Simulates rel left Eq (value id) (value' id)) :
    Simulates rel left Eq (compute source arguments value op)
      (compute source' arguments value' op) := by
  cases op with
  | param index =>
    rw [compute, compute]
    split
    · exact simulates_pure rfl
    · exact simulates_throw related _
  | const v => exact simulates_pure rfl
  | capture name v => exact simulates_pure rfl
  | field base name => exact simulates_call related (inputs base)
  | binary op left right =>
    refine simulates_bind (inputs left) fun a b hab => ?_
    subst hab
    split
    · exact simulates_pure rfl
    · exact simulates_pure rfl
    · exact simulates_call related (inputs right)
  | unary op operand => exact simulates_call related (inputs operand)
  | branch condition whenTrue whenFalse =>
    refine simulates_bind (inputs condition) fun a b hab => ?_
    subst hab
    split
    · exact inputs whenTrue
    · exact inputs whenFalse
    · exact simulates_throw related _
  | tuple items =>
    exact simulates_bind (simulates_mapM items fun id _ => inputs id) fun a b hab =>
      simulates_pure (by rw [hab])
  | element base index =>
    refine simulates_bind (inputs base) fun a b hab => ?_
    subst hab
    split
    · split
      · exact simulates_pure rfl
      · exact simulates_throw related _
    · exact simulates_throw related _
  | call callee items =>
    refine simulates_bind (simulates_mapM items fun id _ => inputs id) fun a b hab => ?_
    subst hab
    split
    · exact simulates_lift related _
    · exact simulates_throw related _
    · refine simulates_bind (Q := fun _ _ => True) (fun p q h => .ok trivial (logged rfl p q _ h))
        fun _ _ _ => simulates_lift related _
  | streamFrom collection =>
    refine simulates_bind (inputs collection) fun a b hab => ?_
    subst hab
    split
    · exact simulates_pure rfl
    · exact simulates_pure rfl
    · exact simulates_throw related _
  | streamEntity provider entity => exact supplied provider entity rfl

end Compute

end Failing

/-- Progress that is related has the same memo, and stays so when both sides take down the same. -/
structure Parallel (rel : Progress τ → Progress υ → Prop) : Prop where
  memo : ∀ p q, rel p q → p.memo = q.memo
  logged : ∀ p q entry, rel p q →
    rel { p with calls := entry :: p.calls } { q with calls := entry :: q.calls }
  remembered : ∀ p q entry, rel p q →
    rel { p with memo := entry :: p.memo } { q with memo := entry :: q.memo }

section Run

variable {source : EntitySource τ} {source' : EntitySource υ} (parallel : Parallel rel)
include parallel

theorem simulates_valueOf (related : ∀ e p q, rel p q → left e p q) (arguments : List Value)
    (ops : List Op)
    (supplied : ∀ provider entity, .streamEntity provider entity ∈ ops →
      Simulates rel left Eq (entities source entity) (entities source' entity)) (fuel id : Nat) :
    Simulates rel left Eq (valueOf source arguments ops fuel id)
      (valueOf source' arguments ops fuel id) := by
  induction fuel generalizing id with
  | zero => exact simulates_throw related _
  | succ fuel ih =>
    refine simulates_bind (Q := rel) (fun p q h => .ok h h) fun p q h => ?_
    rw [parallel.memo p q h]
    split
    · exact simulates_pure rfl
    split
    · exact simulates_throw related _
    · next op hop =>
      have computed := simulates_compute related arguments op (fun provider entity streams =>
        supplied provider entity (streams ▸ List.mem_of_getElem? hop)) (fun _ => parallel.logged) ih
      refine simulates_bind computed fun a b hab => ?_
      subst hab
      exact simulates_bind (Q := fun _ _ => True)
        (fun p q h => .ok trivial (parallel.remembered p q _ h)) fun _ _ _ => simulates_pure rfl

theorem simulates_evaluation (related : ∀ e p q, rel p q → left e p q) (f : ClientFunction)
    (supplied : ∀ entity, f.Streams entity →
      Simulates rel left Eq (entities source entity) (entities source' entity))
    (arguments : List Value) :
    Simulates rel left Eq (f.evaluation source arguments) (f.evaluation source' arguments) := by
  cases f with
  | traced t =>
    have computed (id : Nat) :
        Simulates rel left Eq (valueOf source arguments t.ops t.ops.length id)
          (valueOf source' arguments t.ops t.ops.length id) :=
      simulates_valueOf parallel related arguments t.ops
        (fun provider entity mem => supplied entity ⟨t, provider, rfl, mem⟩) _ id
    have independent (ids : List Nat) : Simulates rel left (fun _ _ => True)
        (ids.forM fun id => discard (valueOf source arguments t.ops t.ops.length id))
        (ids.forM fun id => discard (valueOf source' arguments t.ops t.ops.length id)) := by
      induction ids with
      | nil => exact simulates_pure trivial
      | cons id ids ih =>
        refine simulates_bind (Q := fun _ _ => True) ?_ fun _ _ _ => ih
        exact simulates_bind (computed id) fun _ _ _ => simulates_pure trivial
    exact simulates_bind (independent _) fun _ _ _ => computed t.result
  | sealed run =>
    cases arguments with
    | nil => exact simulates_throw related _
    | cons v _ =>
      exact simulates_bind (Q := fun _ _ => True)
        (fun p q h => .ok trivial (parallel.logged p q _ h)) fun _ _ _ =>
          simulates_lift related (run v)

theorem matches_evaluation (f : ClientFunction)
    (supplied : ∀ entity, f.Streams entity →
      Matches rel Eq (entities source entity) (entities source' entity))
    (arguments : List Value) :
    Matches rel Eq (f.evaluation source arguments) (f.evaluation source' arguments) :=
  matches_iff.2 (simulates_evaluation parallel (fun _ _ _ h => h) f
    (fun entity streams => matches_iff.1 (supplied entity streams)) arguments)

end Run

end Evaluation
end EntityQuery
