import EntityQuery.Executor.Scripted
import EntityQuery.Proofs.Pipeline.Handles
import EntityQuery.Proofs.Pipeline.Paging
import EntityQuery.Proofs.Pipeline.Refinement

/-! Executors that answer a request alike whenever it is made. Rows that a cursor brings then do not
depend on the entities that are loaded in between, nor do the entities on the rows. -/
namespace EntityQuery

variable {σ : Type}

/-- `held handles s` says that in the state `s` at least these handles are held. There is always
another to be had, and a request under one of them is answered by `rows`. -/
structure Executor.Deterministic (executor : Executor σ)
    (rows : FetchRequest → Except ExecutorError (List Row)) (held : List Handle → σ → Prop) :
    Prop where
  acquire : ∀ {handles s}, held handles s →
    ∃ handle s', executor.acquire s = (.ok handle, s') ∧ held (handle :: handles) s'
  fetch : ∀ {handles handle s} request, handle ∈ handles → held handles s →
    ∃ s', executor.fetch handle request s = (rows request, s') ∧ held handles s'
  release : ∀ {handles handle s}, handle ∈ handles → held handles s →
    held (handles.erase handle) (executor.release handle s).2

/-- What loads bring when requests are answered by `rows`. -/
def extentsOf [Libraries] (dialect : Dialect)
    (rows : FetchRequest → Except ExecutorError (List Row)) : Extents := fun entity =>
  match EntityLoader.query dialect entity with
  | .error e => .error e
  | .ok q =>
    match rows ⟨q.text, q.params, q.window⟩ with
    | .error e => .error (.executor e)
    | .ok rows => rows.mapM q.nesting.assemble

/-- The executor without a state. -/
def Executor.answering (rows : FetchRequest → Except ExecutorError (List Row)) :
    Executor Unit where
  acquire := return .ok 0
  fetch _ request := return rows request
  release _ := return ()

namespace Origin

variable (rows : FetchRequest → Except ExecutorError (List Row))

/-- What an origin does on the executor without a state. -/
def alone (origin : Origin) : Event × Origin := (origin.next (.answering rows) ⟨(), []⟩).1

/-- Pulled until it ends, an origin brings these items. -/
inductive Yields : Origin → List Item → Prop
  | done {origin origin' : Origin} (ends : origin.alone rows = (.done, origin')) :
    Yields origin []
  | item {origin origin' : Origin} {item : Item} {l : List Item}
    (brings : origin.alone rows = (.item item, origin')) (rest : Yields origin' l) :
    Yields origin (item :: l)

variable {rows}

/-- What is closed brings the rows that it still holds. -/
theorem yields_closed {c : Cursor} (closed : c.handle = none) (nesting : Nesting) :
    Yields rows (.rows c nesting) (c.buffer.map nesting.assemble) := by
  obtain ⟨q, pageSize, handle, received, buffer⟩ := c
  obtain rfl : handle = none := closed
  induction buffer with
  | nil => exact .done rfl
  | cons row buffer ih => exact .item rfl ih

/-- An origin that has come to its end stays there. -/
theorem yields_nil_of_done {origin origin' : Origin} (ends : origin.alone rows = (.done, origin')) :
    Yields rows origin' [] := by
  cases origin with
  | items l =>
    cases l with
    | nil =>
      cases ends
      exact .done rfl
    | cons item l => cases ends
  | rows c nesting =>
    rcases hnext : c.next (.answering rows) () with ⟨⟨row, c'⟩, s⟩
    simp only [alone, next, Session.onExecutor, bind, StateT.bind, hnext] at ends
    cases row with
    | some row => cases ends
    | none =>
      cases ends
      obtain ⟨closed, empty⟩ := Cursor.finished_of_next hnext
      have rest : Yields rows (.rows c' nesting) _ := yields_closed closed nesting
      rwa [empty] at rest

end Origin

section Deterministic

variable {executor : Executor σ} {rows : FetchRequest → Except ExecutorError (List Row)}
  {held : List Handle → σ → Prop} (deterministic : executor.Deterministic rows held)
include deterministic

theorem Executor.Deterministic.release_head {handle : Handle} {handles : List Handle} {s : σ}
    (hs : held (handle :: handles) s) : held handles (executor.release handle s).2 := by
  have released := deterministic.release List.mem_cons_self hs
  rwa [List.erase_cons_head] at released

theorem Executor.Deterministic.fetchOnce {handles : List Handle} {s : σ} (hs : held handles s)
    (request : FetchRequest) :
    ∃ s', executor.fetchOnce request s = (rows request, s') ∧ held handles s' := by
  obtain ⟨handle, s', acquired, hs'⟩ := deterministic.acquire hs
  obtain ⟨s'', fetched, hs''⟩ := deterministic.fetch request List.mem_cons_self hs'
  refine ⟨_, ?_, deterministic.release_head hs''⟩
  simp only [Executor.fetchOnce, bind, StateT.bind, acquired, fetched]
  rfl

theorem Executor.Deterministic.loads [Libraries] (dialect : Dialect) (handles : List Handle) :
    Engine.Loads { executor, dialect } (extentsOf dialect rows) (held handles) := by
  intro entity s hs
  unfold EntityLoader.load extentsOf
  dsimp only
  cases EntityLoader.query dialect entity with
  | error e => exact ⟨rfl, hs⟩
  | ok q =>
    obtain ⟨s', fetched, hs'⟩ := deterministic.fetchOnce hs ⟨q.text, q.params, q.window⟩
    simp only [bind, StateT.bind, fetched]
    cases rows ⟨q.text, q.params, q.window⟩ <;> exact ⟨rfl, hs'⟩

namespace Cursor

theorem close_of_deterministic {c : Cursor} {s : σ} (hs : held c.handles s) :
    ∃ s', c.close executor s = ({ c with handle := none }, s') ∧ held [] s' := by
  obtain ⟨q, pageSize, handle, received, buffer⟩ := c
  cases handle with
  | none => exact ⟨s, rfl, hs⟩
  | some handle => exact ⟨_, rfl, deterministic.release_head hs⟩

/-- A cursor fills its buffer as it does on the executor without a state. -/
theorem fill_of_deterministic {c : Cursor} {handle : Handle} {s : σ}
    (holds : c.handle = some handle) (hs : held [handle] s) :
    ∃ s', c.fill executor handle s = ((c.fill (.answering rows) handle ()).1, s') ∧
      held (c.fill (.answering rows) handle ()).1.2.handles s' := by
  cases asks : c.nextWindow? with
  | none =>
    rw [fill_none holds asks, fill_none holds asks]
    exact ⟨_, rfl, deterministic.release_head hs⟩
  | some window =>
    obtain ⟨s', fetched, hs'⟩ :=
      deterministic.fetch ⟨c.query.text, c.query.params, window⟩ List.mem_cons_self hs
    have answered : (Executor.answering rows).fetch handle ⟨c.query.text, c.query.params, window⟩ ()
        = (rows ⟨c.query.text, c.query.params, window⟩, ()) := rfl
    cases hrows : rows ⟨c.query.text, c.query.params, window⟩ with
    | error e =>
      rw [hrows] at fetched answered
      rw [fill_failed holds asks fetched, fill_failed holds asks answered]
      exact ⟨_, rfl, deterministic.release_head hs'⟩
    | ok page =>
      rw [hrows] at fetched answered
      cases last : c.isLast page.length with
      | true =>
        rw [fill_last holds asks fetched last, fill_last holds asks answered last]
        exact ⟨_, rfl, deterministic.release_head hs'⟩
      | false =>
        rw [fill_more asks fetched last, fill_more asks answered last]
        refine ⟨s', rfl, ?_⟩
        rw [handles, holds]
        exact hs'

/-- A cursor goes on as it does on the executor without a state. -/
theorem next_of_deterministic {c : Cursor} {s : σ} (hs : held c.handles s) :
    ∃ s', c.next executor s = ((c.next (.answering rows) ()).1, s') ∧
      held (c.next (.answering rows) ()).1.2.handles s' := by
  obtain ⟨q, pageSize, handle, received, buffer⟩ := c
  cases buffer with
  | cons row rest => exact ⟨s, rfl, hs⟩
  | nil =>
    cases handle with
    | none => exact ⟨s, rfl, hs⟩
    | some handle =>
      obtain ⟨s', filled, hs'⟩ := fill_of_deterministic deterministic
        (c := ⟨q, pageSize, some handle, received, []⟩) rfl hs
      rcases hfill : fill (.answering rows) ⟨q, pageSize, some handle, received, []⟩ handle () with
        ⟨⟨r, d⟩, _⟩
      rw [hfill] at filled hs'
      cases r with
      | error e =>
        refine ⟨s', ?_, ?_⟩
        · simp only [next, bind, StateT.bind, filled, hfill]
          rfl
        · simp only [next, bind, StateT.bind, hfill]
          exact hs'
      | ok _ =>
        rw [next_of_fill rfl rfl filled, next_of_fill rfl rfl hfill]
        exact ⟨s', rfl, d.handles_pop.symm ▸ hs'⟩

end Cursor

/-- An origin goes on as it does on the executor without a state. -/
theorem Origin.next_of_deterministic {origin : Origin} {session : Session σ}
    (hs : held origin.handles session.executor) :
    ∃ session', origin.next executor session = (origin.alone rows, session') ∧
      held (origin.alone rows).2.handles session'.executor := by
  cases origin with
  | items l => cases l <;> exact ⟨session, rfl, hs⟩
  | rows c nesting =>
    obtain ⟨s', moved, hs'⟩ := Cursor.next_of_deterministic deterministic hs
    refine ⟨{ session with executor := s' }, ?_, hs'⟩
    simp only [next, Session.onExecutor, bind, StateT.bind, moved]
    rfl

/-- On a deterministic executor an origin brings what it brings on the one without a state, whatever
entities are loaded in between. -/
theorem Executor.Deterministic.steady [Libraries] (dialect : Dialect) :
    Engine.Steady { executor, dialect } (extentsOf dialect rows) fun origin l s =>
      held origin.handles s ∧ origin.Yields rows l where
  item := by
    rintro origin item l session ⟨hs, yields⟩
    obtain ⟨session', moved, hs'⟩ := Origin.next_of_deterministic deterministic hs
    cases yields with
    | item brings rest =>
      rw [brings] at moved hs'
      exact ⟨_, session', moved, hs', rest⟩
  ends := by
    rintro origin session ⟨hs, yields⟩
    obtain ⟨session', moved, hs'⟩ := Origin.next_of_deterministic deterministic hs
    cases yields with
    | done ends =>
      rw [ends] at moved hs'
      exact ⟨_, session', moved, hs', Origin.yields_nil_of_done ends⟩
  close := by
    rintro origin l session ⟨hs, yields⟩
    cases origin with
    | items l => exact ⟨_, _, session, rfl, hs, yields⟩
    | rows c nesting =>
      obtain ⟨s', closed, hs'⟩ := Cursor.close_of_deterministic deterministic hs
      refine ⟨.rows { c with handle := none } nesting, _, { session with executor := s' }, ?_, hs',
        Origin.yields_closed rfl nesting⟩
      simp only [Origin.close, Session.onExecutor, bind, StateT.bind, closed]
      rfl
  loads := by
    rintro origin l entity s ⟨hs, yields⟩
    obtain ⟨brought, kept⟩ := deterministic.loads dialect origin.handles entity s hs
    exact ⟨brought, kept, yields⟩

end Deterministic

/-- What is scripted is answered alike as long as nothing new is scripted. -/
theorem Scripted.deterministic (script : Scripted) :
    executor.Deterministic script.reply fun handles s =>
      s.reply = script.reply ∧ ∀ handle, handles.count handle ≤ s.opened.count handle where
  acquire := by
    rintro handles s ⟨same, opened⟩
    refine ⟨_, _, rfl, same, fun handle => ?_⟩
    have := opened handle
    simp only [Scripted.acquire, List.count_cons]
    omega
  fetch := by
    rintro handles handle s request mem ⟨same, opened⟩
    have among : handle ∈ s.opened :=
      List.count_pos_iff.1 (Nat.lt_of_lt_of_le (List.count_pos_iff.2 mem) (opened handle))
    refine ⟨{ s with log := ⟨handle, request⟩ :: s.log }, ?_, same, opened⟩
    show s.fetch handle request = _
    rw [Scripted.fetch, if_pos (List.contains_iff_mem.2 among), same]
  release := by
    rintro handles handle s mem ⟨same, opened⟩
    have among : handle ∈ s.opened :=
      List.count_pos_iff.1 (Nat.lt_of_lt_of_le (List.count_pos_iff.2 mem) (opened handle))
    show (s.release handle).reply = script.reply ∧
      ∀ other, (handles.erase handle).count other ≤ (s.release handle).opened.count other
    rw [Scripted.release, if_pos (List.contains_iff_mem.2 among)]
    refine ⟨same, fun other => ?_⟩
    have := opened other
    simp only [List.count_erase]
    omega

end EntityQuery
