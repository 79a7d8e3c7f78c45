import EntityQuery.Executor.Basic

/-! What an executor answers. All its answers are put on a log, which changes nothing else. -/
namespace EntityQuery

variable {σ : Type}

/-- An answer of an executor, with what it was asked for. -/
inductive Reply where
  | acquired (answer : Except ExecutorError Handle)
  | fetched (handle : Handle) (request : FetchRequest) (answer : Except ExecutorError (List Row))
  | released (handle : Handle)

def Reply.error? : Reply → Option ExecutorError
  | acquired (.error e) | fetched _ _ (.error e) => some e
  | _ => none

/-- What an executor answers to a single request under a handle of its own, with the outcome. -/
inductive Answers (request : FetchRequest) : List Reply → Except ExecutorError (List Row) → Prop
  | refused (e : ExecutorError) : Answers request [.acquired (.error e)] (.error e)
  | fetched (handle : Handle) (answer : Except ExecutorError (List Row)) :
    Answers request [.acquired (.ok handle), .fetched handle request answer, .released handle]
      answer

/-- The request fails with the error that was answered on the way. -/
theorem Answers.failed_iff {request : FetchRequest} {replies : List Reply}
    {outcome : Except ExecutorError (List Row)} (h : Answers request replies outcome)
    (e : ExecutorError) : replies.findSome? Reply.error? = some e ↔ outcome = .error e := by
  cases h with
  | refused e' => simp [Reply.error?]
  | fetched handle => cases outcome <;> simp [List.findSome?, Reply.error?]

namespace Executor

section Once

variable {executor : Executor σ} {s s' : σ} {handle : Handle} {e : ExecutorError}

theorem fetchOnce_refused (request : FetchRequest) (refused : executor.acquire s = (.error e, s')) :
    executor.fetchOnce request s = (.error e, s') := by
  simp only [fetchOnce, Bind.bind, StateT.bind, refused]
  rfl

theorem fetchOnce_acquired (request : FetchRequest)
    (acquired : executor.acquire s = (.ok handle, s')) :
    executor.fetchOnce request s = ((executor.fetch handle request s').1,
      (executor.release handle (executor.fetch handle request s').2).2) := by
  simp only [fetchOnce, Bind.bind, StateT.bind, acquired]
  rfl

end Once

/-- The executor, with a log of its answers. -/
def replying (executor : Executor σ) : Executor (σ × List Reply) where
  acquire := fun (s, log) =>
    let (answer, s) := executor.acquire s
    (answer, s, log ++ [.acquired answer])
  fetch handle request := fun (s, log) =>
    let (answer, s) := executor.fetch handle request s
    (answer, s, log ++ [.fetched handle request answer])
  release handle := fun (s, log) => ((), (executor.release handle s).2, log ++ [.released handle])

theorem fetchOnce_replying (executor : Executor σ) (request : FetchRequest) (s : σ)
    (log : List Reply) :
    ∃ replies, executor.replying.fetchOnce request (s, log) =
        ((executor.fetchOnce request s).1, (executor.fetchOnce request s).2, log ++ replies) ∧
      Answers request replies (executor.fetchOnce request s).1 := by
  rcases acquired : executor.acquire s with ⟨answer, s'⟩
  have logged : executor.replying.acquire (s, log) = (answer, s', log ++ [.acquired answer]) := by
    simp only [replying, acquired]
  cases answer with
  | error e =>
    rw [fetchOnce_refused request acquired, fetchOnce_refused request logged]
    exact ⟨_, rfl, .refused e⟩
  | ok handle =>
    rw [fetchOnce_acquired request acquired, fetchOnce_acquired request logged]
    rcases fetched : executor.fetch handle request s' with ⟨rows, s''⟩
    exact ⟨_, by simp [replying, fetched], .fetched handle rows⟩

end Executor
end EntityQuery
