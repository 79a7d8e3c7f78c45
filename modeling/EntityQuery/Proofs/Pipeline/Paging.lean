import EntityQuery.Executor.Scripted
import EntityQuery.Pipeline.Cursor
import EntityQuery.Proofs.Query.Window

/-! Paging. A cursor over an executor that brings just the rows of each window asked for yields the
rows inside the window of its query, whether it fetches them all at once or page by page. -/
namespace EntityQuery

variable {σ : Type}

/-- `rows` are the result of a query: a state that is `ready` has a handle to give, and while a
handle is `held` each fetch under it brings the rows inside the window asked for. -/
structure Executor.Supplies (executor : Executor σ) (q : CompiledQuery) (rows : List Row)
    (ready : σ → Prop) (held : Handle → σ → Prop) : Prop where
  acquire : ∀ s, ready s →
    ∃ handle s', executor.acquire s = (.ok handle, s') ∧ held handle s'
  fetch : ∀ handle s window, held handle s →
    ∃ s', executor.fetch handle ⟨q.text, q.params, window⟩ s = (.ok (window.slice rows), s') ∧
      held handle s'

namespace Cursor

variable {executor : Executor σ} {c d : Cursor} {s s' : σ}

/-- Pulled until it ends, a cursor brings these rows and no failure. -/
inductive Yields (executor : Executor σ) : Cursor → σ → List Row → Prop
  | done {c c' : Cursor} {s s' : σ} (ends : c.next executor s = ((none, c'), s')) :
    Yields executor c s []
  | row {c c' : Cursor} {s s' : σ} {row : Row} {rows : List Row}
    (brings : c.next executor s = ((some (.ok row), c'), s')) (rest : Yields executor c' s' rows) :
    Yields executor c s (row :: rows)

/-- A cursor opened on a state can be pulled to its end and brings these rows. -/
def Drains (executor : Executor σ) (q : CompiledQuery) (pageSize : Option PageSize) (s : σ)
    (rows : List Row) : Prop :=
  ∃ c s', start executor q pageSize s = (.ok c, s') ∧ c.Yields executor s' rows

theorem Yields.unique {l l' : List Row} (h : c.Yields executor s l) (h' : c.Yields executor s l') :
    l = l' := by
  induction h generalizing l' with
  | done ends =>
    cases h' with
    | done => rfl
    | row brings => rw [ends] at brings; cases brings
  | row brings _ ih =>
    cases h' with
    | done ends => rw [brings] at ends; cases ends
    | row brings' rest =>
      rw [brings] at brings'
      cases brings'
      rw [ih rest]

theorem Drains.unique {q : CompiledQuery} {pageSize : Option PageSize} {l l' : List Row}
    (h : Drains executor q pageSize s l) (h' : Drains executor q pageSize s l') : l = l' := by
  obtain ⟨c, t, started, yields⟩ := h
  obtain ⟨c', t', started', yields'⟩ := h'
  rw [started] at started'
  cases started'
  exact yields.unique yields'

/-- Cursors whose next pull is the same yield the same. -/
theorem Yields.of_next_eq {l : List Row} (same : c.next executor s = d.next executor s')
    (h : d.Yields executor s' l) : c.Yields executor s l := by
  cases h with
  | done ends => exact .done (same.trans ends)
  | row brings rest => exact .row (same.trans brings) rest

/-- A cursor without a handle yields what it still holds. -/
theorem yields_closed (closed : c.handle = none) : c.Yields executor s c.buffer := by
  obtain ⟨q, pageSize, handle, received, buffer⟩ := c
  obtain rfl : handle = none := closed
  induction buffer with
  | nil => exact .done rfl
  | cons row buffer ih => exact .row rfl ih

/-! ### One fetch -/

/-- A cursor that has used up its rows goes on with those that it fetches. -/
theorem next_of_fill {handle : Handle} (empty : c.buffer = []) (holds : c.handle = some handle)
    (filled : c.fill executor handle s = ((.ok (), d), s')) :
    c.next executor s = (d.pop, s') := by
  simp only [next, empty, holds, bind, StateT.bind, filled]
  rfl

theorem next_eq_pop (h : d.buffer ≠ [] ∨ d.handle = none) : d.next executor s = (d.pop, s) := by
  obtain ⟨q, pageSize, handle, received, buffer⟩ := d
  cases buffer with
  | cons row rest => rfl
  | nil =>
    obtain rfl : handle = none := h.resolve_left fun some => some rfl
    rfl

/-- With the limit reached nothing is fetched. -/
theorem fill_none {handle : Handle} (holds : c.handle = some handle) (full : c.nextWindow? = none) :
    c.fill executor handle s =
      ((.ok (), { c with handle := none }), (executor.release handle s).2) := by
  simp only [fill, full, close, holds, bind, StateT.bind]
  rfl

/-- After the last page the handle goes back. -/
theorem fill_last {handle : Handle} {window : Window} {page : List Row}
    (holds : c.handle = some handle) (asks : c.nextWindow? = some window)
    (fetched : executor.fetch handle ⟨c.query.text, c.query.params, window⟩ s = (.ok page, s'))
    (last : c.isLast page.length = true) :
    c.fill executor handle s =
      ((.ok (), { c with
          received := c.received + .ofNat page.length, buffer := page, handle := none }),
        (executor.release handle s').2) := by
  simp only [fill, asks, close, holds, bind, StateT.bind, fetched, last, if_true]
  rfl

theorem fill_more {handle : Handle} {window : Window} {page : List Row}
    (asks : c.nextWindow? = some window)
    (fetched : executor.fetch handle ⟨c.query.text, c.query.params, window⟩ s = (.ok page, s'))
    (more : c.isLast page.length = false) :
    c.fill executor handle s =
      ((.ok (), { c with received := c.received + .ofNat page.length, buffer := page }), s') := by
  simp only [fill, asks, bind, StateT.bind, fetched, more]
  rfl

/-- After a failure the handle goes back. -/
theorem fill_failed {handle : Handle} {window : Window} {e : ExecutorError}
    (holds : c.handle = some handle) (asks : c.nextWindow? = some window)
    (fetched : executor.fetch handle ⟨c.query.text, c.query.params, window⟩ s = (.error e, s')) :
    c.fill executor handle s =
      ((.error e, { c with handle := none }), (executor.release handle s').2) := by
  simp only [fill, asks, close, holds, bind, StateT.bind, fetched]
  rfl

/-- A page that is not the last has a row. -/
theorem settled_of_fill {handle : Handle} (holds : c.handle = some handle)
    (filled : c.fill executor handle s = ((.ok (), d), s')) :
    d.buffer ≠ [] ∨ d.handle = none := by
  cases asks : c.nextWindow? with
  | none =>
    rw [fill_none holds asks] at filled
    cases filled
    exact .inr rfl
  | some window =>
    rcases fetched : executor.fetch handle ⟨c.query.text, c.query.params, window⟩ s with ⟨r, s''⟩
    cases r with
    | error e =>
      rw [fill_failed holds asks fetched] at filled
      cases filled
    | ok page =>
      cases last : c.isLast page.length with
      | true =>
        rw [fill_last holds asks fetched last] at filled
        cases filled
        exact .inr rfl
      | false =>
        rw [fill_more asks fetched last] at filled
        cases filled
        refine .inl fun empty => ?_
        obtain rfl : page = [] := empty
        cases hsize : c.pageSize with
        | none => simp [isLast, hsize] at last
        | some size => exact absurd size.positive (by simpa [isLast, hsize] using last)

/-- A cursor that has come to its end holds neither rows nor a handle. -/
theorem finished_of_next {c' : Cursor}
    (ends : c.next executor s = ((none, c'), s')) : c'.handle = none ∧ c'.buffer = [] := by
  obtain ⟨q, pageSize, handle, received, buffer⟩ := c
  cases buffer with
  | cons row rest => cases ends
  | nil =>
    cases handle with
    | none =>
      cases ends
      exact ⟨rfl, rfl⟩
    | some handle =>
      rcases filled : fill executor ⟨q, pageSize, some handle, received, []⟩ handle s with
        ⟨⟨r, d⟩, s''⟩
      cases r with
      | error e =>
        simp only [next, bind, StateT.bind, filled] at ends
        cases ends
      | ok _ =>
        rw [next_of_fill rfl rfl filled, pop] at ends
        have settled := settled_of_fill rfl filled
        split at ends
        · cases ends
        · next empty =>
          cases ends
          exact ⟨settled.resolve_left (absurd empty), empty⟩

/-- Rows fetched into an empty buffer are yielded next. -/
theorem Yields.of_fill {handle : Handle} {l : List Row} (empty : c.buffer = [])
    (holds : c.handle = some handle) (filled : c.fill executor handle s = ((.ok (), d), s'))
    (settled : d.buffer ≠ [] ∨ d.handle = none) (h : d.Yields executor s' l) :
    c.Yields executor s l :=
  h.of_next_eq ((next_of_fill empty holds filled).trans (next_eq_pop settled).symm)

theorem limit_of_nextWindow?_eq_none (full : c.nextWindow? = none) :
    ∃ limit, c.query.window.limit = some limit ∧ limit.toNat ≤ c.received.toNat := by
  unfold nextWindow? at full
  split at full
  · next reached =>
    obtain ⟨limit, hlimit, le⟩ := Option.any_eq_true _ _ |>.1 reached
    exact ⟨limit, hlimit, UInt64.le_iff_toNat_le.1 (of_decide_eq_true le)⟩
  · split at full <;> cases full

/-- Nothing is left of a window whose limit is reached. -/
theorem drop_of_nextWindow?_eq_none (full : c.nextWindow? = none) (rows : List Row) :
    (c.query.window.slice rows).drop c.received.toNat = [] := by
  obtain ⟨limit, hlimit, reached⟩ := limit_of_nextWindow?_eq_none full
  have few := Window.length_slice_le_limit hlimit rows
  exact List.drop_eq_nil_of_le (Nat.le_trans few reached)

/-- A page is the part of the window behind the rows received. -/
theorem slice_of_nextWindow? {size : PageSize} {window : Window} {rows : List Row}
    (paged : c.pageSize = some size) (asks : c.nextWindow? = some window)
    (short : rows.length < UInt64.size) :
    window.slice rows =
      ((c.query.window.slice rows).drop c.received.toNat).take size.rows.toNat := by
  unfold nextWindow? at asks
  split at asks
  · cases asks
  · simp only [paged, Option.some.injEq] at asks
    rw [← asks, Window.slice_page _ _ _ short]

/-! ### Pulled to the end -/

variable {q : CompiledQuery} {rows : List Row} {ready : σ → Prop} {held : Handle → σ → Prop}

/-- Without a page size one fetch brings all rows of the window. -/
theorem yields_whole (supplies : executor.Supplies q rows ready held) {handle : Handle}
    (hs : held handle s) :
    Yields executor ⟨q, none, some handle, 0, []⟩ s (q.window.slice rows) := by
  cases asks : nextWindow? ⟨q, none, some handle, 0, []⟩ with
  | none =>
    have nothing := drop_of_nextWindow?_eq_none asks rows
    rw [show q.window.slice rows = [] from nothing]
    exact .of_fill rfl rfl (fill_none rfl asks) (.inr rfl) (yields_closed rfl)
  | some window =>
    obtain rfl : q.window = window := by
      unfold nextWindow? at asks
      split at asks
      · cases asks
      · exact Option.some.inj asks
    obtain ⟨s', fetched, -⟩ := supplies.fetch handle s q.window hs
    exact .of_fill rfl rfl (fill_last rfl asks fetched rfl) (.inr rfl) (yields_closed rfl)

/-- Page by page a cursor brings what is left of the window. The induction is on how much that is:
a page that is not the last is full, and a page size is positive. -/
theorem yields_pages (supplies : executor.Supplies q rows ready held)
    (short : rows.length < UInt64.size) (size : PageSize) {handle : Handle} {received : UInt64}
    {buffer : List Row} (hs : held handle s) :
    Yields executor ⟨q, some size, some handle, received, buffer⟩ s
      (buffer ++ (q.window.slice rows).drop received.toNat) := by
  generalize hn : ((q.window.slice rows).drop received.toNat).length = n
  induction n using Nat.strongRecOn generalizing received buffer s with
  | ind n ih =>
    induction buffer with
    | cons row buffer later => exact .row rfl later
    | nil =>
      rw [List.nil_append]
      cases asks : nextWindow? ⟨q, some size, some handle, received, []⟩ with
      | none =>
        rw [show (q.window.slice rows).drop received.toNat = [] from
          drop_of_nextWindow?_eq_none asks rows]
        exact .of_fill rfl rfl (fill_none rfl asks) (.inr rfl) (yields_closed rfl)
      | some window =>
        obtain ⟨s', fetched, hs'⟩ := supplies.fetch handle s window hs
        have page := slice_of_nextWindow? rfl asks short
        generalize hrest : (q.window.slice rows).drop received.toNat = rest at *
        rw [page] at fetched
        by_cases last : (rest.take size.rows.toNat).length < size.rows.toNat
        · have all : rest.take size.rows.toNat = rest := by
            rw [List.length_take] at last
            exact List.take_of_length_le (by omega)
          rw [all] at fetched last
          have filled := fill_last rfl asks fetched (by simpa [isLast] using last)
          exact .of_fill rfl rfl filled (.inr rfl) (yields_closed rfl)
        · have full : (rest.take size.rows.toNat).length = size.rows.toNat := by
            rw [List.length_take] at last ⊢
            omega
          have filled := fill_more asks fetched (by simpa [isLast] using last)
          have nonempty : rest.take size.rows.toNat ≠ [] := fun empty => by
            rw [empty] at full
            exact Nat.ne_of_lt size.positive full
          have count : (received + .ofNat size.rows.toNat).toNat =
              received.toNat + size.rows.toNat := by
            have few := Nat.lt_of_le_of_lt (q.window.length_slice_le rows) short
            have inside : received.toNat + size.rows.toNat < UInt64.size := by
              have := size.positive
              rw [← hrest, List.length_take, List.length_drop] at full
              omega
            rw [UInt64.ofNat_toNat, UInt64.toNat_add, Nat.mod_eq_of_lt inside]
          have behind : (q.window.slice rows).drop (received + .ofNat size.rows.toNat).toNat =
              rest.drop size.rows.toNat := by
            rw [count, ← hrest, List.drop_drop]
          have shorter : (rest.drop size.rows.toNat).length < n := by
            rw [List.length_take] at full
            rw [List.length_drop]
            have := size.positive
            omega
          have later : Yields executor
              ⟨q, some size, some handle, received + .ofNat size.rows.toNat,
                rest.take size.rows.toNat⟩ s'
              (rest.take size.rows.toNat ++
                (q.window.slice rows).drop (received + .ofNat size.rows.toNat).toNat) :=
            ih _ shorter hs' (congrArg List.length behind)
          rw [behind, List.take_append_drop] at later
          rw [full] at filled
          exact .of_fill rfl rfl filled (.inl nonempty) later

/-- A state that is ready has a handle for a cursor. -/
theorem start_of_supplies (supplies : executor.Supplies q rows ready held) (hs : ready s)
    (pageSize : Option PageSize) :
    ∃ handle s', start executor q pageSize s = (.ok ⟨q, pageSize, some handle, 0, []⟩, s') ∧
      held handle s' := by
  obtain ⟨handle, s', acquired, hs'⟩ := supplies.acquire s hs
  refine ⟨handle, s', ?_, hs'⟩
  simp only [start, bind, StateT.bind, acquired]
  rfl

/-- Paging is transparent: pulled to the end, a cursor brings just the rows inside the window, in
their order, with a page size and without one. -/
theorem paging_transparent (supplies : executor.Supplies q rows ready held)
    (short : rows.length < UInt64.size) (size : PageSize) {t : σ} (hs : ready s) (ht : ready t)
    (l : List Row) :
    (Drains executor q (some size) s l ↔ l = q.window.slice rows) ∧
      (Drains executor q none t l ↔ l = q.window.slice rows) := by
  have drains (pageSize : Option PageSize) {s : σ} (hs : ready s) :
      Drains executor q pageSize s (q.window.slice rows) := by
    obtain ⟨handle, s', started, hs'⟩ := start_of_supplies supplies hs pageSize
    refine ⟨_, s', started, ?_⟩
    cases pageSize with
    | none => exact yields_whole supplies hs'
    | some size => exact yields_pages supplies short size hs'
  exact ⟨⟨fun h => h.unique (drains _ hs), fun h => h ▸ drains _ hs⟩,
    ⟨fun h => h.unique (drains _ ht), fun h => h ▸ drains _ ht⟩⟩

end Cursor

/-! ### The executor in memory -/

namespace Scripted

/-- The rows scripted for the query are these, and nothing stands in their way. -/
def Answers (q : CompiledQuery) (rows : List Row) (s : Scripted) : Prop :=
  ∀ window, s.reply ⟨q.text, q.params, window⟩ = .ok (window.slice rows)

/-- Scripted rows are supplied as long as a handle is open. -/
theorem supplies (q : CompiledQuery) (rows : List Row) :
    executor.Supplies q rows (Answers q rows)
      fun handle s => s.Answers q rows ∧ handle ∈ s.opened where
  acquire s hs := ⟨s.issued + 1, s.acquire.2, rfl, hs, List.mem_cons_self⟩
  fetch handle s window hs := by
    have fetched : s.fetch handle ⟨q.text, q.params, window⟩ =
        (.ok (window.slice rows), { s with log := ⟨handle, q.text, q.params, window⟩ :: s.log }) := by
      rw [fetch, if_pos (List.contains_iff_mem.2 hs.2), hs.1 window]
    exact ⟨_, fetched, hs⟩

/-- Numbers, of which the first is skipped and four are kept. -/
def numbersQuery : CompiledQuery where
  text := "SELECT A.number FROM Numbers A"
  params := []
  window := ⟨1, some 4⟩
  nesting := .leaf
  dialect := .jpql
  fingerprint := ""

def numbers : List Row := [0, 1, 2, 3, 4, 5].map fun n => [.int n]

/-- The limit is a multiple of the page size. -/
theorem numbers_drained :
    Cursor.Drains executor numbersQuery (some ⟨2, by decide⟩)
        (respond {} numbersQuery.text numbers) [[.int 1], [.int 2], [.int 3], [.int 4]] ∧
      Cursor.Drains executor numbersQuery none
        (respond {} numbersQuery.text numbers) [[.int 1], [.int 2], [.int 3], [.int 4]] := by
  have answers : Answers numbersQuery numbers (respond {} numbersQuery.text numbers) := by
    intro window
    rfl
  obtain ⟨paged, whole⟩ := Cursor.paging_transparent (supplies numbersQuery numbers) (by decide)
    ⟨2, by decide⟩ answers answers [[.int 1], [.int 2], [.int 3], [.int 4]]
  exact ⟨paged.2 rfl, whole.2 rfl⟩

end Scripted
end EntityQuery
