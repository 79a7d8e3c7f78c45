import EntityQuery.Proofs.Pipeline.Exchanges
import Mathlib.Algebra.Order.Floor.Div

/-! How often a cursor fetches when it pages over an executor that brings just the rows of each
window asked for. A page is fetched when its first row is pulled. The end of the window costs no
fetch of its own if the limit is reached there; otherwise a page that is not full shows it. -/
namespace EntityQuery

variable {σ : Type}

/-- How many fetches bring all of a window over so many rows, page by page. -/
def Window.pages (w : Window) (size : PageSize) (count : Nat) : Nat :=
  let left := count - w.skip.toNat
  match w.limit with
  | some limit =>
    if limit.toNat ≤ left then limit.toNat ⌈/⌉ size.rows.toNat else left / size.rows.toNat + 1
  | none => left / size.rows.toNat + 1

/-- So many pages are needed for `n` rows, and one page fewer does not do. -/
theorem eq_ceilDiv_of_le {n page count : Nat} (positive : 0 < page) (enough : n ≤ count * page)
    (needed : ∀ before, count = before + 1 → before * page < n) : count = n ⌈/⌉ page := by
  have round := ceilDiv_le_iff_le_mul (b := n) (c := count) positive
  refine Nat.le_antisymm ?_ (round.2 (by rwa [Nat.mul_comm]))
  cases count with
  | zero => exact Nat.zero_le _
  | succ before =>
    have less := needed before rfl
    rw [Nat.mul_comm] at less
    exact Nat.succ_le_of_lt (lt_of_not_ge fun few =>
      Nat.not_le_of_lt less ((ceilDiv_le_iff_le_mul positive).1 few))

/-- What is yielded are the rows brought. -/
theorem Pull.yielded_of_brought {ps : List Pull} {l : List Row} {n : Nat}
    (h : ps.map brought = l.map (fun row => some (.ok row)) ++ List.replicate n none) :
    yielded ps = l := by
  have rows : yielded ps = (ps.map brought).filterMap fun b => row? ⟨[], b⟩ := by
    rw [List.filterMap_map]
    rfl
  rw [rows, h, List.filterMap_append, List.filterMap_map, List.filterMap_replicate_of_none rfl,
    List.append_nil]
  exact List.filterMap_some

/-- A page after the full ones, and no further. -/
theorem eq_div_add_one_of_lt {n page count : Nat} (enough : n < count * page)
    (needed : ∀ before, count = before + 1 → before * page ≤ n) : count = n / page + 1 := by
  cases count with
  | zero => simp at enough
  | succ before => rw [Nat.div_eq_of_lt_le (needed before rfl) enough]

namespace Cursor

variable {executor : Executor σ} {c c' : Cursor} {s s' : σ} {p : Pull} {ps : List Pull}
  {q : CompiledQuery} {size : PageSize} {rows : List Row} {ready : σ → Prop}
  {held : Handle → σ → Prop}

/-! ### What is brought -/

theorem pulls_ended (empty : c.buffer = []) (closed : c.handle = none) (k : Nat) :
    c.pulls executor k s = (List.replicate k ⟨[], none⟩, c, s) := by
  induction k with
  | zero => rfl
  | succ k ih =>
    rw [pulls, pull_ended empty closed]
    simp only [ih]
    rfl

theorem pull_of_next {brought : Option (Except ExecutorError Row)}
    (h : c.next executor s = ((brought, c'), s')) :
    ∃ exchanges, c.pull executor s = (⟨exchanges, brought⟩, c', s') := by
  rcases pulled : c.pull executor s with ⟨⟨exchanges, _⟩, _, _⟩
  rw [next_eq_pull, pulled] at h
  cases h
  exact ⟨exchanges, rfl⟩

/-- A cursor brings its rows, one with each pull, and then nothing more. -/
theorem Yields.pulls {l : List Row} (h : c.Yields executor s l) (k : Nat) :
    (c.pulls executor k s).1.map Pull.brought =
        (l.take k).map (fun row => some (.ok row)) ++ List.replicate (k - l.length) none ∧
      (l.length < k → (c.pulls executor k s).2.1.handle = none) := by
  induction h generalizing k with
  | done ends =>
    cases k with
    | zero => exact ⟨rfl, fun before => absurd before (Nat.not_lt_zero _)⟩
    | succ k =>
      obtain ⟨closed, empty⟩ := finished_of_next ends
      obtain ⟨exchanges, pulled⟩ := pull_of_next ends
      simp only [Cursor.pulls, pulled, pulls_ended empty closed, List.map_cons, List.map_replicate]
      exact ⟨rfl, fun _ => closed⟩
  | row brings _ ih =>
    cases k with
    | zero => exact ⟨by simp [Cursor.pulls], fun before => absurd before (Nat.not_lt_zero _)⟩
    | succ k =>
      obtain ⟨later, closed⟩ := ih k
      obtain ⟨exchanges, pulled⟩ := pull_of_next brings
      simp only [Cursor.pulls, pulled, List.map_cons, later, List.length_cons, List.take_succ_cons]
      exact ⟨by simp, fun before => closed (Nat.lt_of_succ_lt_succ before)⟩

/-! ### What is fetched -/

/-- What is fetched are the rows asked for, and the handle that is held stays good. -/
theorem honest_pull (supplies : executor.Supplies q rows ready held) (query : c.query = q)
    (good : ∀ handle, c.handle = some handle → held handle s) :
    (∀ x ∈ (c.pull executor s).1.exchanges, x.answer = .ok (x.request.window.slice rows)) ∧
      ∀ handle, (c.pull executor s).2.1.handle = some handle →
        held handle (c.pull executor s).2.2 := by
  cases buffer : c.buffer with
  | cons row rest =>
    rw [pull_row buffer]
    exact ⟨nofun, good⟩
  | nil =>
    cases holds : c.handle with
    | none =>
      rw [pull_ended buffer holds]
      exact ⟨nofun, good⟩
    | some handle =>
      cases asks : c.nextWindow? with
      | none =>
        rw [pull_full buffer holds asks]
        exact ⟨nofun, nofun⟩
      | some window =>
        obtain ⟨t, fetched, still⟩ := supplies.fetch handle s window (good handle holds)
        rw [← query] at fetched
        rw [pull_page buffer holds asks fetched]
        refine ⟨fun x hx => ?_, fun handle' holds' => ?_⟩
        · obtain rfl := List.mem_singleton.1 hx
          rfl
        · cases last : c.isLast (window.slice rows).length with
          | true => simp [last] at holds'
          | false =>
            obtain rfl : handle = handle' := by simpa [last] using holds'
            simpa [last] using still

/-- Where a cursor stands that was supplied with the rows asked for: each fetch brought a page, all
but the last of them full. -/
structure Stocked (q : CompiledQuery) (size : PageSize) (rows : List Row) (ps : List Pull)
    (c : Cursor) : Prop where
  stands : Stands q (some size) ps c
  pages : Pull.received ps =
    (q.window.slice rows).take ((Pull.allExchanges ps).length * size.rows.toNat)
  within : c.handle ≠ none →
    (Pull.allExchanges ps).length * size.rows.toNat ≤ (q.window.slice rows).length
  /-- A page was fetched for a pull of its own, while the pages before it were in the window. -/
  needed : ∀ before, (Pull.allExchanges ps).length = before + 1 →
    before * size.rows.toNat < ps.length ∧
      before * size.rows.toNat ≤ (q.window.slice rows).length ∧
      ∀ limit, q.window.limit = some limit → before * size.rows.toNat < limit.toNat
  closed : c.handle = none →
    (q.window.slice rows).length < (Pull.allExchanges ps).length * size.rows.toNat ∨
      ∃ limit, q.window.limit = some limit ∧ limit.toNat ≤ (Pull.received ps).length

namespace Stocked

theorem of_start (started : start executor q (some size) s = (.ok c, s')) :
    Stocked q size rows [] c := by
  have stands := stands_of_start started
  refine ⟨stands, by simp [Pull.received, Pull.allExchanges], fun _ => by simp [Pull.allExchanges],
    fun _ count => by simp [Pull.allExchanges] at count, fun closed => .inr ?_⟩
  exact (stands.ended closed).resolve_left (by simp [Pull.allExchanges])

/-- So few rows are counted exactly. -/
theorem count (h : Stocked q size rows ps c) (short : rows.length < UInt64.size) :
    c.received.toNat = (Pull.received ps).length := by
  have few : (Pull.received ps).length < UInt64.size := by
    rw [h.pages, List.length_take]
    have := q.window.length_slice_le rows
    omega
  rw [h.stands.count, Pull.count_of_lt few]

/-- A pull without a fetch. -/
theorem quiet (h : Stocked q size rows ps c) (quiet : p.exchanges = [])
    (stands : Stands q (some size) (ps ++ [p]) c')
    (holds : c'.handle = c.handle ∨ c'.handle = none ∧
      ∃ limit, q.window.limit = some limit ∧ limit.toNat ≤ (Pull.received ps).length) :
    Stocked q size rows (ps ++ [p]) c' := by
  have exchanges := Pull.allExchanges_quiet quiet ps
  have received := Pull.received_quiet quiet ps
  refine ⟨stands, ?_, fun going => ?_, fun before count => ?_, fun closed => ?_⟩
  · rw [received, exchanges]
    exact h.pages
  · rw [exchanges]
    exact h.within (holds.elim (· ▸ going) fun reached => absurd reached.1 going)
  · rw [exchanges] at count
    obtain ⟨pulls, inside⟩ := h.needed before count
    refine ⟨Nat.lt_of_lt_of_le pulls ?_, inside⟩
    rw [List.length_append]
    exact Nat.le_add_right _ _
  · rw [exchanges, received]
    exact holds.elim (fun same => h.closed (same ▸ closed)) fun reached => .inr reached.2

/-- A fetch brings the next page of the window. -/
theorem moves (short : rows.length < UInt64.size) (h : Stocked q size rows ps c)
    (moves : c.Moves p c')
    (honest : ∀ x ∈ p.exchanges, x.answer = .ok (x.request.window.slice rows)) :
    Stocked q size rows (ps ++ [p]) c' := by
  have stands := (h.stands.moves moves).2
  cases moves with
  | row buffer => exact h.quiet rfl stands (.inl rfl)
  | ended empty closed => exact h.quiet rfl stands (.inl rfl)
  | full empty held full =>
    obtain ⟨limit, hlimit, reached⟩ := limit_of_nextWindow?_eq_none full
    exact h.quiet rfl stands (.inr ⟨rfl, limit, h.stands.query ▸ hlimit, h.count short ▸ reached⟩)
  | failed empty held asks => nomatch honest _ List.mem_cons_self
  | @page window page empty held asks =>
    obtain rfl : page = window.slice rows := Except.ok.inj (honest _ List.mem_cons_self)
    have within := h.within held
    have before : c.received.toNat = (Pull.allExchanges ps).length * size.rows.toNat := by
      rw [h.count short, h.pages, List.length_take, Nat.min_eq_left within]
    have page := slice_of_nextWindow? h.stands.size asks short
    rw [h.stands.query, before] at page
    have few : (Pull.yielded ps).length ≤ ps.length := List.length_filterMap_le _ _
    rw [h.stands.yielded_of_empty empty, ← h.count short, before] at few
    have under := (window_of_nextWindow? asks).1
    rw [h.stands.query, before] at under
    have last : c.isLast (window.slice rows).length = true ↔ (q.window.slice rows).length <
        ((Pull.allExchanges ps).length + 1) * size.rows.toNat := by
      have positive := size.positive
      rw [page, List.length_take, List.length_drop, isLast, h.stands.size, Nat.add_mul]
      simp only [Option.all_some, decide_eq_true_eq]
      omega
    refine ⟨stands, ?_, fun going => ?_, fun n count => ?_, fun closed => ?_⟩
    · rw [Pull.received_concat, Pull.allExchanges_concat, h.pages, List.length_append,
        Nat.add_mul, List.take_add]
      simp [Exchange.rows, page]
    · rw [Pull.allExchanges_concat, List.length_append]
      exact Nat.le_of_not_lt fun less => going (if_pos (last.2 less))
    · obtain rfl : (Pull.allExchanges ps).length = n := by
        simpa [Pull.allExchanges_concat] using count
      refine ⟨?_, within, under⟩
      rw [List.length_append]
      exact Nat.lt_succ_of_le few
    · rw [Pull.allExchanges_concat, List.length_append]
      cases isLast : c.isLast (window.slice rows).length with
      | true => exact .inl (last.1 isLast)
      | false => exact absurd (by simpa [isLast] using closed) held

/-- So do pulls one after another, as long as the handle held is good. -/
theorem pulls (supplies : executor.Supplies q rows ready held) (short : rows.length < UInt64.size)
    (h : Stocked q size rows ps c) (good : ∀ handle, c.handle = some handle → held handle s)
    (k : Nat) :
    Stocked q size rows (ps ++ (c.pulls executor k s).1) (c.pulls executor k s).2.1 := by
  induction k generalizing ps c s with
  | zero => simpa [Cursor.pulls] using h
  | succ k ih =>
    obtain ⟨honest, good⟩ := honest_pull supplies h.stands.query good
    have stocked := h.moves short (moves_pull executor c s) honest
    have later := ih stocked good
    rwa [List.append_assoc, List.singleton_append] at later

/-- What was yielded lies on the pages received. -/
theorem length_yielded_le (h : Stocked q size rows ps c) :
    (Pull.yielded ps).length ≤ (Pull.allExchanges ps).length * size.rows.toNat := by
  have received := h.pages
  rw [h.stands.rows] at received
  have total := congrArg List.length received
  rw [List.length_append, List.length_take] at total
  omega

/-- In the end all pages of the window were fetched. -/
theorem length_of_closed (h : Stocked q size rows ps c) (closed : c.handle = none) :
    (Pull.allExchanges ps).length = q.window.pages size rows.length := by
  have received := congrArg List.length h.pages
  rw [List.length_take] at received
  have closed := h.closed closed
  have short (less : (q.window.slice rows).length <
      (Pull.allExchanges ps).length * size.rows.toNat) := eq_div_add_one_of_lt less
    fun before count => (h.needed before count).2.1
  have length : (q.window.slice rows).length = match q.window.limit with
      | some limit => min limit.toNat (rows.length - q.window.skip.toNat)
      | none => rows.length - q.window.skip.toNat := by
    rw [Window.slice]
    cases q.window.limit <;> simp
  rw [Window.pages]
  cases hlimit : q.window.limit with
  | none =>
    rw [hlimit] at closed length
    dsimp only at length ⊢
    rw [← length]
    exact short (closed.resolve_right (by simp))
  | some limit =>
    simp only [hlimit, Option.some.injEq, exists_eq_left'] at closed length ⊢
    by_cases inside : limit.toNat ≤ rows.length - q.window.skip.toNat
    · rw [Nat.min_eq_left inside] at length
      rw [if_pos inside]
      refine eq_ceilDiv_of_le size.positive ?_ fun before count =>
        (h.needed before count).2.2 limit hlimit
      omega
    · rw [Nat.min_eq_right (Nat.le_of_not_le inside)] at length
      rw [if_neg inside, ← length]
      exact short (closed.resolve_right fun reached => by omega)

end Stocked

/-- How often a cursor fetches. Its first pulls bring the rows of the window and all others bring
nothing; for the first `k` rows just the pages are fetched that they lie on, and for the end as many
as the limit or the rows left demand. -/
theorem fetches_of_supplies (supplies : executor.Supplies q rows ready held)
    (short : rows.length < UInt64.size) (size : PageSize) (hs : ready s) :
    ∃ c s', start executor q (some size) s = (.ok c, s') ∧ ∀ k,
      let all := q.window.slice rows
      let ps := (c.pulls executor k s').1
      ps.map Pull.brought =
          (all.take k).map (fun row => some (.ok row)) ++ List.replicate (k - all.length) none ∧
        (Pull.allExchanges ps).length =
          if k ≤ all.length then k ⌈/⌉ size.rows.toNat else q.window.pages size rows.length := by
  obtain ⟨handle, s', started, hs'⟩ := start_of_supplies supplies hs (some size)
  refine ⟨_, s', started, fun k => ?_⟩
  intro all ps
  have yields : Yields executor ⟨q, some size, some handle, 0, []⟩ s' all :=
    yields_pages supplies short size hs'
  obtain ⟨brought, closed⟩ := yields.pulls k
  have stocked : Stocked q size rows ps _ := (Stocked.of_start started).pulls supplies short
    (fun _ same => Option.some.inj same ▸ hs') k
  refine ⟨brought, ?_⟩
  split
  · next inside =>
    have pulls : ps.length = k := by simpa [inside] using congrArg List.length brought
    have yielded := Pull.yielded_of_brought brought
    have enough := stocked.length_yielded_le
    rw [yielded, List.length_take, Nat.min_eq_left inside] at enough
    exact eq_ceilDiv_of_le size.positive enough fun n count => pulls ▸ (stocked.needed n count).1
  · next outside => exact stocked.length_of_closed (closed (Nat.lt_of_not_le outside))

end Cursor

/-- Four rows in pages of two: the third row costs the second fetch, and the end no other. -/
theorem Scripted.numbers_fetched : ∃ c s,
    Cursor.start executor numbersQuery (some ⟨2, by decide⟩)
        (respond {} numbersQuery.text numbers) = (.ok c, s) ∧
      (Pull.allExchanges (c.pulls executor 3 s).1).length = 2 ∧
      (Pull.allExchanges (c.pulls executor 5 s).1).length = 2 := by
  have answers : Answers numbersQuery numbers (respond {} numbersQuery.text numbers) := by
    intro window
    rfl
  obtain ⟨c, s, started, fetches⟩ := Cursor.fetches_of_supplies (supplies numbersQuery numbers)
    (by decide) ⟨2, by decide⟩ answers
  exact ⟨c, s, started, (fetches 3).2, (fetches 5).2⟩

end EntityQuery
