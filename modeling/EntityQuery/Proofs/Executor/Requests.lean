import EntityQuery.Executor.Basic

/-! What an executor is asked for. An invariant of the state behind an executor may rest on what is
fetched; a run that fetches only what is allowed then keeps it. The plainest such invariant is that
of a log of all requests. -/
namespace EntityQuery

variable {σ α β : Type} {inv : σ → Prop} {allowed : FetchRequest → Prop}

/-- From states that satisfy the invariant the action leads to such states, with a result that
satisfies the postcondition. -/
def Maintains (inv : σ → Prop) (x : StateM σ α) (post : α → Prop) : Prop :=
  ∀ s, inv s → post (x s).1 ∧ inv (x s).2

namespace Maintains

theorem pure {post : α → Prop} {a : α} (h : post a) : Maintains inv (pure a) post :=
  fun _ hs => ⟨h, hs⟩

theorem bind {x : StateM σ α} {f : α → StateM σ β} {between : α → Prop} {post : β → Prop}
    (first : Maintains inv x between) (rest : ∀ a, between a → Maintains inv (f a) post) :
    Maintains inv (x >>= f) post := by
  intro s hs
  obtain ⟨reached, hs'⟩ := first s hs
  exact rest _ reached _ hs'

end Maintains

namespace Executor

/-- The executor keeps the invariant as long as it is asked only for what is allowed. -/
structure Guards (executor : Executor σ) (allowed : FetchRequest → Prop) (inv : σ → Prop) :
    Prop where
  acquire : Maintains inv executor.acquire fun _ => True
  fetch : ∀ handle request, allowed request →
    Maintains inv (executor.fetch handle request) fun _ => True
  release : ∀ handle, Maintains inv (executor.release handle) fun _ => True

theorem Guards.fetchOnce {executor : Executor σ} (guards : executor.Guards allowed inv)
    {request : FetchRequest} (h : allowed request) :
    Maintains inv (executor.fetchOnce request) fun _ => True := by
  refine guards.acquire.bind fun result _ => ?_
  cases result with
  | error e => exact .pure trivial
  | ok handle =>
    refine (guards.fetch handle request h).bind fun rows _ => ?_
    exact (guards.release handle).bind fun _ _ => .pure trivial

/-- The executor, with a log of the requests that it is sent. -/
def recorded (executor : Executor σ) : Executor (σ × List FetchRequest) where
  acquire := fun (s, log) =>
    let (result, s) := executor.acquire s
    (result, s, log)
  fetch handle request := fun (s, log) =>
    let (rows, s) := executor.fetch handle request s
    (rows, s, log ++ [request])
  release handle := fun (s, log) => ((), (executor.release handle s).2, log)

/-- Where only allowed requests are made, only those are on the log. -/
theorem guards_recorded (executor : Executor σ) (allowed : FetchRequest → Prop) :
    executor.recorded.Guards allowed fun t => ∀ request ∈ t.2, allowed request where
  acquire _ hs := ⟨trivial, hs⟩
  fetch handle request h t hs := by
    refine ⟨trivial, fun other mem => ?_⟩
    rcases List.mem_append.1 mem with before | last
    · exact hs other before
    · obtain rfl := List.mem_singleton.1 last
      exact h
  release _ _ hs := ⟨trivial, hs⟩

end Executor
end EntityQuery
