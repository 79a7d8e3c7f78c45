import EntityQuery.Proofs.Pipeline.Paging
import Mathlib.Data.List.Induction

/-! What passes between a cursor and its executor, whatever the executor answers. A pull makes a
fetch only when no row is left, and only one; it asks for what lies behind the rows received so far.
After a failure, a short page or the last row of the limit nothing is fetched any more. What the
cursor yields are the rows that it received. -/
namespace EntityQuery

variable {σ : Type}

/-- A fetch and its answer. -/
structure Exchange where
  request : FetchRequest
  answer : Except ExecutorError (List Row)

namespace Exchange

/-- The rows received; none when the fetch failed. -/
def rows (x : Exchange) : List Row :=
  match x.answer with
  | .ok page => page
  | .error _ => []

def failure? (x : Exchange) : Option ExecutorError :=
  match x.answer with
  | .ok _ => none
  | .error e => some e

/-- A page after which another may come. Without a page size all rows come at once. -/
def IsFull (pageSize : Option PageSize) (x : Exchange) : Prop :=
  ∃ page size, x.answer = .ok page ∧ pageSize = some size ∧ size.rows.toNat ≤ page.length

end Exchange

/-- The executor, with a transcript of what is fetched and how it is answered. -/
def Executor.transcribed (executor : Executor σ) : Executor (σ × List Exchange) where
  acquire := fun (s, transcript) =>
    let (result, s) := executor.acquire s
    (result, s, transcript)
  fetch handle request := fun (s, transcript) =>
    let (answer, s) := executor.fetch handle request s
    (answer, s, transcript ++ [⟨request, answer⟩])
  release handle := fun (s, transcript) => ((), (executor.release handle s).2, transcript)

/-- One pull of a cursor: what was fetched for it, and what it brought. -/
structure Pull where
  exchanges : List Exchange
  brought : Option (Except ExecutorError Row)

namespace Pull

def row? (p : Pull) : Option Row :=
  match p.brought with
  | some (.ok row) => some row
  | _ => none

def failure? (p : Pull) : Option ExecutorError := p.exchanges.findSome? Exchange.failure?

/-- All fetches of pulls one after another. -/
def allExchanges (ps : List Pull) : List Exchange := ps.flatMap exchanges

def received (ps : List Pull) : List Row := (allExchanges ps).flatMap Exchange.rows

/-- The number of rows received, as it is counted: from zero again after the largest count. -/
def count (ps : List Pull) : Nat := (received ps).length % UInt64.size

def yielded (ps : List Pull) : List Row := ps.filterMap row?

theorem allExchanges_append (ps ps' : List Pull) :
    allExchanges (ps ++ ps') = allExchanges ps ++ allExchanges ps' := List.flatMap_append

theorem allExchanges_concat (ps : List Pull) (p : Pull) :
    allExchanges (ps ++ [p]) = allExchanges ps ++ p.exchanges := by
  rw [allExchanges_append, allExchanges, allExchanges, List.flatMap_singleton]

theorem received_concat (ps : List Pull) (p : Pull) :
    received (ps ++ [p]) = received ps ++ p.exchanges.flatMap Exchange.rows := by
  rw [received, allExchanges_concat, List.flatMap_append, received]

/-- The count is exact as long as there are as many rows as can be counted. -/
theorem count_of_lt {ps : List Pull} (few : (received ps).length < UInt64.size) :
    count ps = (received ps).length :=
  Nat.mod_eq_of_lt few

theorem count_concat (ps : List Pull) (p : Pull) :
    count (ps ++ [p]) = (count ps + (p.exchanges.flatMap Exchange.rows).length) % UInt64.size := by
  rw [count, received_concat, List.length_append, count, Nat.mod_add_mod]

theorem yielded_concat (ps : List Pull) (p : Pull) :
    yielded (ps ++ [p]) = yielded ps ++ p.row?.toList := by
  rw [yielded, List.filterMap_append, yielded]
  cases h : p.row? <;> simp [h]

/-- No more is to come: a fetch failed or brought a short page, or all rows at once, or the limit is
reached. -/
def Over (q : CompiledQuery) (pageSize : Option PageSize) (ps : List Pull) : Prop :=
  (∃ x ∈ allExchanges ps, ¬x.IsFull pageSize) ∨
    ∃ limit, q.window.limit = some limit ∧ limit.toNat ≤ count ps

/-! A pull without a fetch changes neither what was fetched nor what was received. -/
section Quiet

variable {p : Pull} (quiet : p.exchanges = []) (ps : List Pull)

include quiet

theorem allExchanges_quiet : allExchanges (ps ++ [p]) = allExchanges ps := by
  rw [allExchanges_concat, quiet, List.append_nil]

theorem received_quiet : received (ps ++ [p]) = received ps := by
  rw [received, allExchanges_quiet quiet, received]

theorem count_quiet : count (ps ++ [p]) = count ps := by
  rw [count, received_quiet quiet, count]

theorem over_quiet {q : CompiledQuery} {pageSize : Option PageSize} :
    Over q pageSize (ps ++ [p]) ↔ Over q pageSize ps := by
  rw [Over, allExchanges_quiet quiet, count_quiet quiet, Over]

end Quiet

theorem over_of_mem {q : CompiledQuery} {pageSize : Option PageSize} {x : Exchange} {p : Pull}
    (mem : x ∈ p.exchanges) (short : ¬x.IsFull pageSize) (ps : List Pull) :
    Over q pageSize (ps ++ [p]) := by
  refine .inl ⟨x, ?_, short⟩
  rw [allExchanges_concat]
  exact List.mem_append_right _ mem

/-- What the next pull may do after others, on a cursor for the query `q`. A fetch asks for the rows
behind those received so far, and for as many as the page size and the limit allow. -/
structure Continues (q : CompiledQuery) (pageSize : Option PageSize) (before : List Pull)
    (p : Pull) : Prop where
  once : p.exchanges.length ≤ 1
  query : ∀ x ∈ p.exchanges, x.request.query = q.text ∧ x.request.params = q.params
  skip : ∀ x ∈ p.exchanges, x.request.window.skip.toNat =
    min (q.window.skip.toNat + count before) (UInt64.size - 1)
  limit : ∀ x ∈ p.exchanges, ∀ size, pageSize = some size → ∃ n : UInt64,
    x.request.window.limit = some n ∧ 0 < n.toNat ∧ n.toNat = match q.window.limit with
      | some limit => min size.rows.toNat (limit.toNat - count before)
      | none => size.rows.toNat
  whole : ∀ x ∈ p.exchanges, pageSize = none → x.request.window = q.window
  /-- No row that was received is left. -/
  dry : p.exchanges ≠ [] → yielded before = received before
  going : p.exchanges ≠ [] → ¬Over q pageSize before
  /-- What is brought is the failure of the fetch, or else the first of all rows received that was
  not yielded yet. -/
  brings : p.brought = match p.failure? with
    | some e => some (.error e)
    | none => ((received (before ++ [p])).drop (yielded before).length).head?.map .ok
  ends : p.brought = none → Over q pageSize (before ++ [p])

end Pull

namespace Cursor

variable {executor : Executor σ} {c c' : Cursor} {s s' : σ} {handle : Handle} {window : Window}
  {p : Pull} {q : CompiledQuery} {pageSize : Option PageSize}

/-- The next row, with all that is fetched for it. -/
def pull (executor : Executor σ) (c : Cursor) (s : σ) : Pull × Cursor × σ :=
  let ((brought, c), s, transcript) := c.next executor.transcribed (s, [])
  (⟨transcript, brought⟩, c, s)

/-- So many pulls one after another. -/
def pulls (executor : Executor σ) : Nat → Cursor → σ → List Pull × Cursor × σ
  | 0, c, s => ([], c, s)
  | n + 1, c, s =>
    let (p, c, s) := c.pull executor s
    let (ps, c, s) := pulls executor n c s
    (p :: ps, c, s)

/-! ### One pull -/

theorem pull_row {row : Row} {rest : List Row} (buffer : c.buffer = row :: rest) :
    c.pull executor s = (⟨[], some (.ok row)⟩, { c with buffer := rest }, s) := by
  obtain ⟨q, pageSize, handle, received, _⟩ := c
  subst buffer
  rfl

theorem pull_ended (empty : c.buffer = []) (closed : c.handle = none) :
    c.pull executor s = (⟨[], none⟩, c, s) := by
  obtain ⟨q, pageSize, _, received, _⟩ := c
  subst empty closed
  rfl

theorem pull_full (empty : c.buffer = []) (holds : c.handle = some handle)
    (full : c.nextWindow? = none) :
    c.pull executor s =
      (⟨[], none⟩, { c with handle := none }, (executor.release handle s).2) := by
  rw [pull, next_of_fill empty holds (fill_none holds full), pop]
  dsimp only
  rw [empty]
  rfl

theorem pull_failed {e : ExecutorError} (empty : c.buffer = []) (holds : c.handle = some handle)
    (asks : c.nextWindow? = some window)
    (fetched : executor.fetch handle ⟨c.query.text, c.query.params, window⟩ s = (.error e, s')) :
    c.pull executor s =
      (⟨[⟨⟨c.query.text, c.query.params, window⟩, .error e⟩], some (.error e)⟩,
        { c with handle := none }, (executor.release handle s').2) := by
  have watched : executor.transcribed.fetch handle ⟨c.query.text, c.query.params, window⟩ (s, []) =
      (.error e, s', [⟨⟨c.query.text, c.query.params, window⟩, .error e⟩]) := by
    simp only [Executor.transcribed, fetched, List.nil_append]
  simp only [pull, next, empty, holds, bind, StateT.bind, fill_failed holds asks watched]
  rfl

/-- The rows of a page are handed on, the first at once. -/
theorem pull_page {page : List Row} (empty : c.buffer = []) (holds : c.handle = some handle)
    (asks : c.nextWindow? = some window)
    (fetched : executor.fetch handle ⟨c.query.text, c.query.params, window⟩ s = (.ok page, s')) :
    c.pull executor s =
      (⟨[⟨⟨c.query.text, c.query.params, window⟩, .ok page⟩], page.head?.map .ok⟩,
        { c with
          received := c.received + .ofNat page.length
          buffer := page.tail
          handle := if c.isLast page.length then none else some handle },
        if c.isLast page.length then (executor.release handle s').2 else s') := by
  have watched : executor.transcribed.fetch handle ⟨c.query.text, c.query.params, window⟩ (s, []) =
      (.ok page, s', [⟨⟨c.query.text, c.query.params, window⟩, .ok page⟩]) := by
    simp only [Executor.transcribed, fetched, List.nil_append]
  cases last : c.isLast page.length with
  | true =>
    rw [pull, next_of_fill empty holds (fill_last holds asks watched last)]
    cases page <;> rfl
  | false =>
    rw [pull, next_of_fill empty holds (fill_more asks watched last)]
    cases page <;> simp [pop, holds]

/-- What a pull can be, whatever the executor answers. -/
inductive Moves : Cursor → Pull → Cursor → Prop
  | row {c : Cursor} {row : Row} {rest : List Row} (buffer : c.buffer = row :: rest) :
    Moves c ⟨[], some (.ok row)⟩ { c with buffer := rest }
  | ended {c : Cursor} (empty : c.buffer = []) (closed : c.handle = none) : Moves c ⟨[], none⟩ c
  | full {c : Cursor} (empty : c.buffer = []) (held : c.handle ≠ none)
    (full : c.nextWindow? = none) : Moves c ⟨[], none⟩ { c with handle := none }
  | failed {c : Cursor} {window : Window} {e : ExecutorError} (empty : c.buffer = [])
    (held : c.handle ≠ none) (asks : c.nextWindow? = some window) :
    Moves c ⟨[⟨⟨c.query.text, c.query.params, window⟩, .error e⟩], some (.error e)⟩
      { c with handle := none }
  | page {c : Cursor} {window : Window} {page : List Row} (empty : c.buffer = [])
    (held : c.handle ≠ none) (asks : c.nextWindow? = some window) :
    Moves c ⟨[⟨⟨c.query.text, c.query.params, window⟩, .ok page⟩], page.head?.map .ok⟩
      { c with
        received := c.received + .ofNat page.length
        buffer := page.tail
        handle := if c.isLast page.length then none else c.handle }

/-- A pull with its transcript is a pull, and one of those that there can be. -/
theorem moves_pull (executor : Executor σ) (c : Cursor) (s : σ) :
    c.Moves (c.pull executor s).1 (c.pull executor s).2.1 := by
  cases buffer : c.buffer with
  | cons row rest =>
    rw [pull_row buffer]
    exact .row buffer
  | nil =>
    cases holds : c.handle with
    | none =>
      rw [pull_ended buffer holds]
      exact .ended buffer holds
    | some handle =>
      have held : c.handle ≠ none := by simp [holds]
      cases asks : c.nextWindow? with
      | none =>
        rw [pull_full buffer holds asks]
        exact .full buffer held asks
      | some window =>
        rcases fetched : executor.fetch handle ⟨c.query.text, c.query.params, window⟩ s with ⟨r, s'⟩
        cases r with
        | error e =>
          rw [pull_failed buffer holds asks fetched]
          exact .failed buffer held asks
        | ok page =>
          rw [pull_page buffer holds asks fetched, ← holds]
          exact .page buffer held asks

/-! ### Pulls one after another -/

/-- The next window begins behind the rows received, and is not empty. -/
theorem window_of_nextWindow? (asks : c.nextWindow? = some window) :
    (∀ limit, c.query.window.limit = some limit → c.received.toNat < limit.toNat) ∧
      match c.pageSize with
      | some size => window = c.query.window.page c.received size.rows
      | none => window = c.query.window := by
  unfold nextWindow? at asks
  split at asks
  · cases asks
  · next under =>
    refine ⟨fun limit hlimit => ?_, ?_⟩
    · rw [hlimit] at under
      simpa [UInt64.lt_iff_toNat_lt] using under
    · cases hsize : c.pageSize with
      | none => simpa [hsize] using asks.symm
      | some size => simpa [hsize] using asks.symm

/-- The last page is one that is not full. -/
theorem isLast_iff (c : Cursor) (request : FetchRequest) (page : List Row) :
    c.isLast page.length = true ↔ ¬Exchange.IsFull c.pageSize ⟨request, .ok page⟩ := by
  rw [isLast, Exchange.IsFull]
  cases c.pageSize with
  | none => simp
  | some size => simp

/-- Where a cursor stands after pulls. -/
structure Stands (q : CompiledQuery) (pageSize : Option PageSize) (ps : List Pull) (c : Cursor) :
    Prop where
  query : c.query = q
  size : c.pageSize = pageSize
  count : c.received.toNat = Pull.count ps
  rows : Pull.received ps = Pull.yielded ps ++ c.buffer
  going : c.handle ≠ none → ∀ x ∈ Pull.allExchanges ps, x.IsFull pageSize
  ended : c.handle = none → Pull.Over q pageSize ps

namespace Stands

variable {ps : List Pull}

theorem yielded_of_empty (h : Stands q pageSize ps c) (empty : c.buffer = []) :
    Pull.yielded ps = Pull.received ps := by
  rw [h.rows, empty, List.append_nil]

/-- Without a page size nothing has been fetched while the handle is held. -/
theorem received_of_whole (h : Stands q none ps c) (held : c.handle ≠ none) :
    Pull.received ps = [] := by
  have none : Pull.allExchanges ps = [] := List.eq_nil_iff_forall_not_mem.2 fun x hx => by
    obtain ⟨_, _, _, paged, _⟩ := h.going held x hx
    cases paged
  rw [Pull.received, none]
  rfl

/-- A pull may fetch the next window. -/
theorem continues_fetch (h : Stands q pageSize ps c) (empty : c.buffer = [])
    (held : c.handle ≠ none) (asks : c.nextWindow? = some window)
    {answer : Except ExecutorError (List Row)} {brought : Option (Except ExecutorError Row)}
    (brings : brought = match answer with
      | .error e => some (.error e)
      | .ok page => page.head?.map .ok) :
    Pull.Continues q pageSize ps
      ⟨[⟨⟨c.query.text, c.query.params, window⟩, answer⟩], brought⟩ := by
  obtain ⟨under, next⟩ := window_of_nextWindow? asks
  rw [h.query, h.count] at under
  rw [h.query, h.size] at next
  have bound := q.window.skip.toNat_lt
  refine ⟨Nat.le_refl 1, ?_, ?_, ?_, ?_, fun _ => h.yielded_of_empty empty, ?_, ?_, fun none => ?_⟩
  all_goals try rw [List.forall_mem_singleton]
  · rw [h.query]
    exact ⟨rfl, rfl⟩
  · cases pageSize with
    | some size =>
      obtain rfl := next
      rw [Window.skip_page, h.count]
    | none =>
      obtain rfl := next
      rw [Pull.count, h.received_of_whole held]
      exact (Nat.min_eq_left (Nat.le_sub_one_of_lt bound)).symm
  · rintro size rfl
    obtain rfl := next
    obtain ⟨n, hn, length⟩ := q.window.limit_page c.received size.rows
    rw [h.count] at length
    refine ⟨n, hn, ?_, length⟩
    have positive := size.positive
    rw [length]
    split
    · next limit hlimit =>
      have := under limit hlimit
      omega
    · exact positive
  · rintro rfl
    exact next
  · rintro - (⟨x, hx, short⟩ | ⟨limit, hlimit, reached⟩)
    · exact short (h.going held x hx)
    · exact Nat.not_le_of_lt (under limit hlimit) reached
  · rw [Pull.received_concat, h.yielded_of_empty empty, brings]
    cases answer with
    | error e => rfl
    | ok page => simp [Pull.failure?, Exchange.failure?, Exchange.rows]
  · -- only a page without rows brings nothing, and it is short
    refine Pull.over_of_mem List.mem_cons_self ?_ ps
    rintro ⟨page, size, answered, -, full⟩
    obtain rfl : answer = .ok page := answered
    obtain rfl : page = [] := by simpa [brings] using none
    exact Nat.not_le_of_lt size.positive full

/-- Without a fetch a pull brings the first row that is left. -/
theorem continues_rest (h : Stands q pageSize ps c)
    (ends : c.buffer = [] → Pull.Over q pageSize ps) :
    Pull.Continues q pageSize ps ⟨[], c.buffer.head?.map .ok⟩ := by
  refine ⟨Nat.zero_le 1, nofun, nofun, nofun, nofun, nofun, nofun, ?_, fun none => ?_⟩
  · rw [Pull.received_quiet rfl, h.rows]
    simp [Pull.failure?]
  · exact (Pull.over_quiet rfl ps).2 (ends (by simpa using none))

/-- Nothing is fetched and nothing brought; the handle goes back, or has gone before. -/
theorem quiet (h : Stands q pageSize ps c) (empty : c.buffer = [])
    (ends : Pull.Over q pageSize ps) :
    Pull.Continues q pageSize ps ⟨[], none⟩ ∧
      Stands q pageSize (ps ++ [⟨[], none⟩]) { c with handle := none } := by
  have continues := h.continues_rest fun _ => ends
  rw [empty] at continues
  refine ⟨continues, h.query, h.size, h.count.trans (Pull.count_quiet rfl ps).symm, ?_,
    fun some => absurd rfl some, fun _ => continues.ends rfl⟩
  rw [Pull.received_quiet rfl, h.rows, Pull.yielded_concat]
  simp [Pull.row?]

/-- A pull is one that there may be next, and leaves the cursor where it stands after it. -/
theorem moves (h : Stands q pageSize ps c) (moves : c.Moves p c') :
    Pull.Continues q pageSize ps p ∧ Stands q pageSize (ps ++ [p]) c' := by
  cases moves with
  | @row row rest buffer =>
    have continues := h.continues_rest fun empty => by simp [empty] at buffer
    rw [buffer] at continues
    refine ⟨continues, h.query, h.size, h.count.trans (Pull.count_quiet rfl ps).symm, ?_, ?_,
      fun closed => (Pull.over_quiet rfl ps).2 (h.ended closed)⟩
    · rw [Pull.received_quiet rfl, Pull.yielded_concat, h.rows, buffer]
      simp [Pull.row?]
    · rw [Pull.allExchanges_quiet rfl]
      exact h.going
  | ended empty closed =>
    have same : c = { c with handle := none } := by rw [← closed]
    have quiet := h.quiet empty (h.ended closed)
    rwa [← same] at quiet
  | full empty held full =>
    refine h.quiet empty (.inr ?_)
    obtain ⟨limit, hlimit, reached⟩ := limit_of_nextWindow?_eq_none full
    exact ⟨limit, h.query ▸ hlimit, h.count ▸ reached⟩
  | @failed window e empty held asks =>
    refine ⟨h.continues_fetch empty held asks rfl, h.query, h.size, ?_, ?_,
      fun some => absurd rfl some, fun _ => ?_⟩
    · rw [Pull.count_concat, ← h.count]
      exact (Nat.mod_eq_of_lt c.received.toNat_lt).symm
    · rw [Pull.received_concat, Pull.yielded_concat, h.rows]
      simp [Exchange.rows, Pull.row?]
    · refine Pull.over_of_mem List.mem_cons_self ?_ ps
      rintro ⟨page, size, answered, -⟩
      cases answered
  | @page window page empty held asks =>
    have last := c.isLast_iff ⟨c.query.text, c.query.params, window⟩ page
    rw [h.size] at last
    refine ⟨h.continues_fetch empty held asks rfl, h.query, h.size, ?_, ?_, fun more => ?_,
      fun none => ?_⟩
    · rw [Pull.count_concat, ← h.count, UInt64.toNat_add, UInt64.toNat_ofNat']
      simp [Exchange.rows, Nat.add_mod]
    · rw [Pull.received_concat, Pull.yielded_concat, h.rows, empty]
      cases page <;> simp [Exchange.rows, Pull.row?]
    · rw [Pull.allExchanges_concat, List.forall_mem_append, List.forall_mem_singleton]
      refine ⟨h.going held, ?_⟩
      by_contra short
      exact more (if_pos (last.2 short))
    · refine Pull.over_of_mem List.mem_cons_self (last.1 ?_) ps
      by_contra unfinished
      exact held (by simpa [unfinished] using none)

/-- So are pulls one after another. -/
theorem pulls (h : Stands q pageSize ps c) (executor : Executor σ) (s : σ) (n : Nat) :
    Stands q pageSize (ps ++ (c.pulls executor n s).1) (c.pulls executor n s).2.1 ∧
      ∀ before p after, (c.pulls executor n s).1 = before ++ p :: after →
        Pull.Continues q pageSize (ps ++ before) p := by
  induction n generalizing ps c s with
  | zero =>
    refine ⟨by simpa [Cursor.pulls] using h, fun before p after none => ?_⟩
    simp [Cursor.pulls] at none
  | succ n ih =>
    obtain ⟨continues, stands⟩ := h.moves (moves_pull executor c s)
    obtain ⟨later, others⟩ := ih stands (c.pull executor s).2.2
    rw [List.append_assoc, List.singleton_append] at later
    refine ⟨later, fun before p after split => ?_⟩
    cases before with
    | nil =>
      obtain ⟨rfl, -⟩ := List.cons.inj split
      rw [List.append_nil]
      exact continues
    | cons first before =>
      obtain ⟨rfl, rest⟩ := List.cons.inj split
      have continues := others before p after rest
      rwa [List.append_assoc, List.singleton_append] at continues

end Stands

/-- A cursor that was just opened has neither fetched nor yielded anything. -/
theorem stands_of_start (started : start executor q pageSize s = (.ok c, s')) :
    Stands q pageSize [] c := by
  rcases acquired : executor.acquire s with ⟨r, t⟩
  simp only [start, bind, StateT.bind, acquired] at started
  cases r with
  | error e => cases started
  | ok handle =>
    cases started
    exact ⟨rfl, rfl, rfl, rfl, fun _ => List.forall_mem_nil _,
      fun closed => absurd closed (Option.some_ne_none handle)⟩

/-! ### Rounds -/

/-- With its transcript a pull is the same. -/
theorem next_eq_pull : c.next executor s = (((c.pull executor s).1.brought,
    (c.pull executor s).2.1), (c.pull executor s).2.2) := by
  by_cases settled : c.buffer ≠ [] ∨ c.handle = none
  · rw [pull, next_eq_pop settled, next_eq_pop settled]
  · rw [not_or, not_not] at settled
    obtain ⟨empty, held⟩ := settled
    obtain ⟨handle, holds⟩ := Option.ne_none_iff_exists'.1 held
    cases asks : c.nextWindow? with
    | none =>
      rw [next_of_fill empty holds (fill_none holds asks), pull_full empty holds asks, pop]
      dsimp only
      rw [empty]
    | some window =>
      rcases fetched : executor.fetch handle ⟨c.query.text, c.query.params, window⟩ s with ⟨r, t⟩
      cases r with
      | error e =>
        rw [pull_failed empty holds asks fetched]
        simp only [next, empty, holds, bind, StateT.bind, fill_failed holds asks fetched]
        rfl
      | ok page =>
        rw [pull_page empty holds asks fetched]
        cases last : c.isLast page.length with
        | true =>
          rw [next_of_fill empty holds (fill_last holds asks fetched last)]
          cases page <;> rfl
        | false =>
          rw [next_of_fill empty holds (fill_more asks fetched last)]
          cases page <;> simp [pop, holds]

end Cursor

end EntityQuery
