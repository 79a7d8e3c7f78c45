import EntityQuery.Executor.Scripted
import EntityQuery.Proofs.Dictionary
import Mathlib.Data.List.Basic
import Mathlib.Data.List.Induction

/-! The books of a scripted executor. It may be asked for anything, also under handles that it never
issued or that were returned. What it answers then, and what its counters, its open handles and its
log of fetches are, can be told from the history of what it was asked for. -/
namespace EntityQuery
namespace Scripted

/-- What an executor can be asked for, and what can be scripted meanwhile. -/
inductive Action where
  | acquire
  | fetch (handle : Handle) (request : FetchRequest)
  | release (handle : Handle)
  | respond (query : String) (rows : List Row)
  | fail (query : String) (cause : ExecutorError)

/-- An action that was taken, with what it gave. -/
inductive Entry where
  | issued (handle : Handle)
  | answered (handle : Handle) (request : FetchRequest) (answer : Except ExecutorError (List Row))
  | returned (handle : Handle)
  | responds (query : String) (rows : List Row)
  | fails (query : String) (cause : ExecutorError)

def perform (s : Scripted) : Action → Entry × Scripted
  | .acquire => (.issued s.acquire.1, s.acquire.2)
  | .fetch handle request =>
    (.answered handle request (s.fetch handle request).1, (s.fetch handle request).2)
  | .release handle => (.returned handle, s.release handle)
  | .respond query rows => (.responds query rows, s.respond query rows)
  | .fail query cause => (.fails query cause, s.fail query cause)

/-- The history of actions one after another, and the state that they lead to. -/
def run (s : Scripted) (actions : List Action) : List Entry × Scripted :=
  actions.foldl
    (fun (history, s) action => (history ++ [(s.perform action).1], (s.perform action).2)) ([], s)

theorem run_concat (s : Scripted) (actions : List Action) (action : Action) :
    s.run (actions ++ [action]) = ((s.run actions).1 ++ [((s.run actions).2.perform action).1],
      ((s.run actions).2.perform action).2) :=
  List.foldl_append

/-! ### Histories -/

/-- The entry is there, and none behind it cancels it. -/
def Stands (cancels : Entry → Prop) (history : List Entry) (entry : Entry) : Prop :=
  ∃ before after, history = before ++ entry :: after ∧ ∀ later ∈ after, ¬cancels later

/-- The handle was issued and not returned since. -/
def IsOpen (history : List Entry) (handle : Handle) : Prop :=
  Stands (· = .returned handle) history (.issued handle)

/-- Of the failures scripted for the query, this is the last. -/
def FailsWith (history : List Entry) (query : String) (cause : ExecutorError) : Prop :=
  Stands (∃ other, · = .fails query other) history (.fails query cause)

/-- The handles that were issued, in order. -/
def issuedHandles (history : List Entry) : List Handle :=
  history.filterMap fun | .issued handle => some handle | _ => none

section Histories

variable {cancels : Entry → Prop} {history : List Entry} {entry last : Entry}

theorem not_stands_nil : ¬Stands cancels [] entry := by
  rintro ⟨before, after, split, -⟩
  simp at split

theorem stands_concat : Stands cancels (history ++ [last]) entry ↔
    last = entry ∨ ¬cancels last ∧ Stands cancels history entry := by
  constructor
  · rintro ⟨before, after, split, kept⟩
    rcases List.eq_nil_or_concat after with rfl | ⟨after, later, rfl⟩
    · exact .inl (List.cons.inj (List.append_inj' split rfl).2).1
    · rw [List.concat_eq_append, ← List.cons_append, ← List.append_assoc] at split
      obtain ⟨rfl, same⟩ := List.append_inj' split rfl
      obtain rfl := (List.cons.inj same).1
      rw [List.concat_eq_append, List.forall_mem_append, List.forall_mem_singleton] at kept
      exact .inr ⟨kept.2, before, after, rfl, kept.1⟩
  · rintro (rfl | ⟨kept, before, after, rfl, others⟩)
    · exact ⟨history, [], rfl, List.forall_mem_nil _⟩
    · refine ⟨before, after ++ [last], by rw [List.append_assoc, List.cons_append], ?_⟩
      exact List.forall_mem_append.2 ⟨others, List.forall_mem_singleton.2 kept⟩

/-- An entry of another kind neither adds to what stands nor cancels it. -/
theorem stands_concat_of_apart (other : last ≠ entry) (keeps : ¬cancels last) :
    Stands cancels (history ++ [last]) entry ↔ Stands cancels history entry := by
  rw [stands_concat, or_iff_right other, and_iff_right keeps]

theorem issuedHandles_concat : issuedHandles (history ++ [last]) =
    issuedHandles history ++ issuedHandles [last] :=
  List.filterMap_append

end Histories

/-! ### What every history keeps -/

/-- The state that a history leads to. Handles are numbered as they are issued. -/
structure Books (history : List Entry) (s : Scripted) : Prop where
  issued : issuedHandles history = List.range' 1 s.issued
  acquired : s.acquired = s.issued
  opened : ∀ handle, handle ∈ s.opened ↔ IsOpen history handle
  distinct : s.opened.Nodup
  balance : s.acquired = s.released + s.openHandles
  failures : ∀ query cause, s.failures.find? query = some cause ↔ FailsWith history query cause

namespace Books

variable {history : List Entry} {s : Scripted} {handle : Handle}

theorem start (syntaxCheck : Option (String → Bool)) : Books [] { syntaxCheck } where
  issued := rfl
  acquired := rfl
  opened _ := iff_of_false List.not_mem_nil not_stands_nil
  distinct := .nil
  balance := rfl
  failures _ _ := iff_of_false nofun not_stands_nil

theorem issued_concat (books : Books history s) {last : Entry} (none : issuedHandles [last] = []) :
    issuedHandles (history ++ [last]) = List.range' 1 s.issued := by
  rw [issuedHandles_concat, none, List.append_nil, books.issued]

/-- What is neither issued nor returned leaves the same handles open. -/
theorem opened_concat (books : Books history s) {last : Entry} (new : last ≠ .issued handle)
    (kept : last ≠ .returned handle) :
    handle ∈ s.opened ↔ IsOpen (history ++ [last]) handle :=
  (books.opened handle).trans (stands_concat_of_apart new kept).symm

theorem failures_concat (books : Books history s) {last : Entry} {query : String}
    {cause : ExecutorError} (other : ∀ cause, last ≠ .fails query cause) :
    s.failures.find? query = some cause ↔ FailsWith (history ++ [last]) query cause :=
  (books.failures query cause).trans
    (stands_concat_of_apart (other cause) fun ⟨cause, same⟩ => other cause same).symm

theorem lt_of_mem_opened (books : Books history s) (mem : handle ∈ s.opened) :
    handle < s.issued + 1 := by
  obtain ⟨before, after, rfl, -⟩ := (books.opened handle).1 mem
  have issued : handle ∈ issuedHandles (before ++ .issued handle :: after) :=
    List.mem_filterMap.2 ⟨_, List.mem_append_right _ List.mem_cons_self, rfl⟩
  rw [books.issued, List.mem_range'_1] at issued
  exact Nat.lt_of_lt_of_eq issued.2 (Nat.add_comm 1 s.issued)

/-- The handle issued is a new one. -/
theorem acquire (books : Books history s) :
    Books (history ++ [.issued s.acquire.1]) s.acquire.2 where
  issued := by
    rw [issuedHandles_concat, books.issued]
    exact (List.range'_1_concat.trans (by rw [Nat.add_comm]; rfl)).symm
  acquired := congrArg (· + 1) books.acquired
  opened handle := by
    rw [IsOpen, stands_concat, Entry.issued.injEq, and_iff_right nofun]
    exact List.mem_cons.trans (or_congr eq_comm (books.opened handle))
  distinct := by
    refine List.nodup_cons.2 ⟨fun mem => ?_, books.distinct⟩
    exact Nat.lt_irrefl _ (books.lt_of_mem_opened mem)
  balance := congrArg (· + 1) books.balance
  failures _ _ := books.failures_concat nofun

theorem fetch (books : Books history s) (handle : Handle) (request : FetchRequest) :
    Books (history ++ [.answered handle request (s.fetch handle request).1])
      (s.fetch handle request).2 := by
  have logged : Books (history ++ [.answered handle request (s.fetch handle request).1]) s :=
    ⟨books.issued_concat rfl, books.acquired, fun _ => books.opened_concat nofun nofun,
      books.distinct, books.balance, fun _ _ => books.failures_concat nofun⟩
  -- the log of fetches is none of what is kept here
  generalize Entry.answered handle request (s.fetch handle request).1 = entry at logged ⊢
  unfold Scripted.fetch
  split
  · exact ⟨logged.issued, logged.acquired, logged.opened, logged.distinct, logged.balance,
      logged.failures⟩
  · exact logged

/-- Only a handle that is open is given back. -/
theorem release (books : Books history s) (handle : Handle) :
    Books (history ++ [.returned handle]) (s.release handle) := by
  have opened (other : Handle) : IsOpen (history ++ [.returned handle]) other ↔
      other ≠ handle ∧ other ∈ s.opened := by
    rw [IsOpen, stands_concat, or_iff_right nofun, Entry.returned.injEq, books.opened, ne_comm]
    rfl
  unfold Scripted.release
  split
  · next mem =>
    have mem := List.contains_iff_mem.1 mem
    refine ⟨books.issued_concat rfl, books.acquired, fun other => ?_, books.distinct.erase _, ?_,
      fun _ _ => books.failures_concat nofun⟩
    · exact (books.distinct.mem_erase_iff).trans (opened other).symm
    · have shorter : (s.opened.erase handle).length + 1 = s.opened.length :=
        List.length_erase_add_one mem
      have balance := books.balance
      simp only [openHandles] at balance ⊢
      omega
  · next absent =>
    have absent : handle ∉ s.opened := fun mem => absent (List.contains_iff_mem.2 mem)
    refine ⟨books.issued_concat rfl, books.acquired, fun other => ?_, books.distinct, books.balance,
      fun _ _ => books.failures_concat nofun⟩
    rw [opened, iff_and_self]
    exact fun mem same => absent (same ▸ mem)

theorem respond (books : Books history s) (query : String) (rows : List Row) :
    Books (history ++ [.responds query rows]) (s.respond query rows) where
  issued := books.issued_concat rfl
  acquired := books.acquired
  opened _ := books.opened_concat nofun nofun
  distinct := books.distinct
  balance := books.balance
  failures _ _ := books.failures_concat nofun

/-- The failure takes the place of one scripted before. -/
theorem fail (books : Books history s) (query : String) (cause : ExecutorError) :
    Books (history ++ [.fails query cause]) (s.fail query cause) where
  issued := books.issued_concat rfl
  acquired := books.acquired
  opened _ := books.opened_concat nofun nofun
  distinct := books.distinct
  balance := books.balance
  failures other e := by
    change (s.failures.insert query cause).find? other = some e ↔ _
    rw [Dictionary.find?_insert]
    split
    · next same =>
      subst same
      rw [FailsWith, stands_concat, Option.some.injEq, Entry.fails.injEq, and_iff_right rfl,
        or_iff_left fun standing => standing.1 ⟨cause, rfl⟩]
    · next apart =>
      exact books.failures_concat fun e same => apart (Entry.fails.inj same).1.symm

theorem perform (books : Books history s) (action : Action) :
    Books (history ++ [(s.perform action).1]) (s.perform action).2 := by
  cases action with
  | acquire => exact books.acquire
  | fetch handle request => exact books.fetch handle request
  | release handle => exact books.release handle
  | respond query rows => exact books.respond query rows
  | fail query cause => exact books.fail query cause

theorem run (syntaxCheck : Option (String → Bool)) (actions : List Action) :
    Books (run { syntaxCheck } actions).1 (run { syntaxCheck } actions).2 := by
  induction actions using List.reverseRecOn with
  | nil => exact start syntaxCheck
  | append_singleton actions action ih =>
    rw [run_concat]
    exact ih.perform action

end Books

/-! ### The queries fetched -/

/-- The members of a list, each once, in the order in which they are first seen. -/
structure FirstSeen (l seen : List String) : Prop where
  mem : ∀ a, a ∈ seen ↔ a ∈ l
  order : seen.Pairwise fun a b => l.idxOf a < l.idxOf b

/-- What was seen before stays where it was first seen; what is new comes last. -/
theorem FirstSeen.concat {l seen : List String} (h : FirstSeen l seen) (a : String) :
    FirstSeen (l ++ [a]) (if seen.contains a then seen else seen ++ [a]) := by
  have place {b : String} (hb : b ∈ seen) : (l ++ [a]).idxOf b = l.idxOf b :=
    List.idxOf_append_of_mem ((h.mem b).1 hb)
  have order : seen.Pairwise fun b c => (l ++ [a]).idxOf b < (l ++ [a]).idxOf c :=
    h.order.imp_of_mem fun hb hc lt => by rwa [place hb, place hc]
  split
  · next old =>
    refine ⟨fun b => ?_, order⟩
    rw [List.mem_append, List.mem_singleton, ← h.mem, iff_self_or]
    exact fun same => same ▸ List.contains_iff_mem.1 old
  · next new =>
    have new : a ∉ seen := fun mem => new (List.contains_iff_mem.2 mem)
    refine ⟨fun b => ?_, List.pairwise_append.2 ⟨order, List.pairwise_singleton _ _, ?_⟩⟩
    · rw [List.mem_append, List.mem_append, h.mem]
    · intro b hb c hc
      obtain rfl := List.mem_singleton.1 hc
      have last : (l ++ [c]).idxOf c = l.length := by
        rw [List.idxOf_append_of_notMem ((h.mem c).not.1 new), List.idxOf_cons_self, Nat.add_zero]
      rw [place hb, last]
      exact List.idxOf_lt_length_of_mem ((h.mem b).1 hb)

theorem firstSeen_queries (s : Scripted) :
    FirstSeen (s.fetches.map (·.request.query)) s.queries := by
  unfold queries
  generalize s.fetches = log
  induction log using List.reverseRecOn with
  | nil => exact ⟨fun _ => Iff.rfl, .nil⟩
  | append_singleton log last ih =>
    rw [List.foldl_append, List.map_append]
    exact ih.concat last.request.query

/-! ### Answers to fetches -/

/-- The text may be sent to the executor. -/
def Admits (syntaxCheck : Option (String → Bool)) (query : String) : Prop :=
  ∀ parses ∈ syntaxCheck, parses query

theorem reply_unknownHandle_iff {s : Scripted} {request : FetchRequest} {handle : Handle} :
    s.reply request = .error (.unknownHandle handle) ↔ Admits s.syntaxCheck request.query ∧
      s.failures.find? request.query = some (.unknownHandle handle) := by
  have refused : (s.syntaxCheck.any fun parses => !parses request.query) = true ↔
      ¬Admits s.syntaxCheck request.query := by
    unfold Admits
    cases s.syntaxCheck <;> simp
  rw [reply]
  split
  · next malformed => simp [refused.1 malformed]
  · next passed =>
    rw [refused, not_not] at passed
    cases s.failures.find? request.query <;> cases s.responses.find? request.query <;>
      simp [passed]

theorem syntaxCheck_perform (s : Scripted) (action : Action) :
    (s.perform action).2.syntaxCheck = s.syntaxCheck := by
  cases action with
  | fetch handle request =>
    change (s.fetch handle request).2.syntaxCheck = _
    unfold fetch
    split <;> rfl
  | release handle =>
    change (s.release handle).syntaxCheck = _
    unfold release
    split <;> rfl
  | _ => rfl

theorem syntaxCheck_run (syntaxCheck : Option (String → Bool)) (actions : List Action) :
    (run { syntaxCheck } actions).2.syntaxCheck = syntaxCheck := by
  induction actions using List.reverseRecOn with
  | nil => rfl
  | append_singleton actions action ih =>
    rw [run_concat]
    exact (syntaxCheck_perform _ action).trans ih

/-- The books of an executor after a history. -/
structure Accounted (syntaxCheck : Option (String → Bool)) (history : List Entry)
    (s : Scripted) : Prop where
  /-- Handles are counted as they are acquired; each was released or is open. -/
  acquired : s.acquired = (issuedHandles history).length
  balance : s.acquired = s.released + s.openHandles
  opened : s.opened.Nodup ∧ ∀ handle, handle ∈ s.opened ↔ IsOpen history handle
  /-- No handle is issued twice. -/
  unique : (issuedHandles history).Nodup
  /-- A fetch finds its handle unknown if the handle is not open, or if it was told to say so. -/
  unknown : ∀ handle request,
    (∃ other, (s.fetch handle request).1 = .error (.unknownHandle other)) ↔
      ¬IsOpen history handle ∨ Admits syntaxCheck request.query ∧
        ∃ other, FailsWith history request.query (.unknownHandle other)
  /-- Under a handle that is not open nothing changes. -/
  refused : ∀ handle request, ¬IsOpen history handle →
    s.fetch handle request = (.error (.unknownHandle handle), s)
  /-- Under one that is, the fetch is put on the log, whatever comes of it, and nothing else
  changes. -/
  logged : ∀ handle request, IsOpen history handle →
    (s.fetch handle request).2 = { s with log := ⟨handle, request⟩ :: s.log } ∧
      (s.fetch handle request).2.fetches = s.fetches ++ [⟨handle, request⟩]
  queries : FirstSeen (s.fetches.map (·.request.query)) s.queries

/-- The books are in order after any actions, whatever handles these use and whatever parser checks
the texts, if one does. -/
theorem accounted_of_run (syntaxCheck : Option (String → Bool)) (actions : List Action) :
    Accounted syntaxCheck (run { syntaxCheck } actions).1 (run { syntaxCheck } actions).2 := by
  have books := Books.run syntaxCheck actions
  have checks := syntaxCheck_run syntaxCheck actions
  generalize (run { syntaxCheck } actions).1 = history at *
  generalize (run { syntaxCheck } actions).2 = s at *
  have refused (handle : Handle) (request : FetchRequest) (closed : ¬IsOpen history handle) :
      s.fetch handle request = (.error (.unknownHandle handle), s) := by
    rw [← books.opened, ← List.contains_iff_mem] at closed
    exact if_neg closed
  have served (handle : Handle) (request : FetchRequest) (isOpen : IsOpen history handle) :
      s.fetch handle request = (s.reply request, { s with log := ⟨handle, request⟩ :: s.log }) := by
    rw [← books.opened, ← List.contains_iff_mem] at isOpen
    exact if_pos isOpen
  refine ⟨?_, books.balance, ⟨books.distinct, books.opened⟩, ?_, fun handle request => ?_, refused,
    fun handle request isOpen => ?_, firstSeen_queries s⟩
  · rw [books.issued, List.length_range', books.acquired]
  · rw [books.issued]
    exact List.nodup_range'
  · by_cases isOpen : IsOpen history handle
    · simp only [served handle request isOpen, reply_unknownHandle_iff, books.failures, checks,
        isOpen, not_true_eq_false, false_or, exists_and_left]
    · simp [refused handle request isOpen, isOpen]
  · rw [served handle request isOpen]
    exact ⟨rfl, List.reverse_cons⟩

/-- A failure that was scripted may call the handle unknown under which a query is fetched. -/
theorem unknown_of_open :
    let (history, s) := run {} [.fail "orders" (.unknownHandle 1), .acquire]
    IsOpen history 1 ∧
      (s.fetch 1 ⟨"orders", [], {}⟩).1 = .error (.unknownHandle 1) :=
  ⟨⟨[.fails "orders" (.unknownHandle 1)], [], rfl, List.forall_mem_nil _⟩, rfl⟩

end Scripted
end EntityQuery
