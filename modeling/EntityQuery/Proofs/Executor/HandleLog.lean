import EntityQuery.Executor.Basic
import Mathlib.Data.List.Induction

/-! Handles on a log. All that is asked of an executor is put on a log, which changes nothing else.
From a log one sees which handles are held, and whether each is given back and none used before or
after. -/
namespace EntityQuery

/-- What an executor is asked for. Where a handle is refused there is none to go on with. -/
inductive HandleEvent where
  | acquired (handle : Handle)
  | refused
  | fetched (handle : Handle)
  | released (handle : Handle)
deriving DecidableEq

namespace HandleEvent

/-- The handles held after an event; only those held before can be used. -/
def heldAfter? (held : List Handle) : HandleEvent → Option (List Handle)
  | acquired handle => some (handle :: held)
  | refused => some held
  | fetched handle => if handle ∈ held then some held else none
  | released handle => if handle ∈ held then some (held.erase handle) else none

/-- The handles held after events, none having been held before. -/
def held? (events : List HandleEvent) : Option (List Handle) := events.foldlM heldAfter? []

/-- Each handle is given back as often as it was acquired, and used only between the two. -/
structure Balanced (events : List HandleEvent) : Prop where
  returned : ∀ handle, events.count (.released handle) = events.count (.acquired handle)
  fetches : ∀ before handle after, events = before ++ .fetched handle :: after →
    before.count (.released handle) < before.count (.acquired handle)
  releases : ∀ before handle after, events = before ++ .released handle :: after →
    before.count (.released handle) < before.count (.acquired handle)

variable {events : List HandleEvent} {held held' : List Handle} {handle : Handle}

theorem mem_of_fetched (h : (fetched handle).heldAfter? held = some held') : handle ∈ held :=
  (Option.ite_none_right_eq_some.1 h).1

theorem mem_of_released (h : (released handle).heldAfter? held = some held') : handle ∈ held :=
  (Option.ite_none_right_eq_some.1 h).1

theorem held?_append (before after : List HandleEvent) :
    held? (before ++ after) = (held? before).bind fun held => after.foldlM heldAfter? held :=
  List.foldlM_append

theorem held?_concat (event : HandleEvent) (h : held? events = some held) :
    held? (events ++ [event]) = event.heldAfter? held := by
  rw [held?_append, h]
  exact bind_pure (event.heldAfter? held)

/-- An event that acquires a handle adds it to those held, and one that releases it takes it out. -/
theorem count_heldAfter? {event : HandleEvent} (h : event.heldAfter? held = some held')
    (handle : Handle) :
    [event].count (.acquired handle) + held.count handle =
      [event].count (.released handle) + held'.count handle := by
  cases event with
  | acquired other =>
    obtain rfl : other :: held = held' := Option.some.inj h
    simp [List.count_cons, Nat.add_comm]
  | refused =>
    obtain rfl : held = held' := Option.some.inj h
    rfl
  | fetched other =>
    obtain rfl : held = held' := Option.some.inj (Option.ite_none_right_eq_some.1 h).2
    rfl
  | released other =>
    obtain ⟨mem, h⟩ := Option.ite_none_right_eq_some.1 h
    obtain rfl : held.erase other = held' := Option.some.inj h
    have split : held.count handle = (other :: held.erase other).count handle :=
      (List.perm_cons_erase mem).count_eq handle
    simp [split, List.count_cons, Nat.add_comm]

/-- What was acquired has been given back or is still held. -/
theorem count_acquired (h : held? events = some held) (handle : Handle) :
    events.count (.acquired handle) = events.count (.released handle) + held.count handle := by
  induction events using List.reverseRecOn generalizing held with
  | nil =>
    obtain rfl : [] = held := Option.some.inj h
    rfl
  | append_singleton events event ih =>
    rw [held?_append] at h
    obtain ⟨held', before, h⟩ := Option.bind_eq_some_iff.1 h
    have h : event.heldAfter? held' = some held := (bind_pure _).symm.trans h
    have step := count_heldAfter? h handle
    rw [List.count_append, List.count_append, ih before]
    omega

/-- A handle that is used is held. -/
theorem count_lt_of_use {before after : List HandleEvent} {event : HandleEvent}
    (h : held? (before ++ event :: after) = some held)
    (used : ∀ held held', event.heldAfter? held = some held' → handle ∈ held) :
    before.count (.released handle) < before.count (.acquired handle) := by
  rw [held?_append] at h
  obtain ⟨first, hfirst, h⟩ := Option.bind_eq_some_iff.1 h
  rw [List.foldlM_cons] at h
  obtain ⟨next, hnext, -⟩ := Option.bind_eq_some_iff.1 h
  have := List.count_pos_iff.2 (used first next hnext)
  have := count_acquired hfirst handle
  omega

theorem balanced_of_held? (h : held? events = some []) : Balanced events where
  returned handle := by
    have := count_acquired h handle
    simpa using this.symm
  fetches _ _ _ heq := count_lt_of_use (heq ▸ h) fun _ _ => mem_of_fetched
  releases _ _ _ heq := count_lt_of_use (heq ▸ h) fun _ _ => mem_of_released

end HandleEvent

variable {σ α β : Type}

/-- The executor, with a log of what is asked of it. -/
def Executor.logged (executor : Executor σ) : Executor (σ × List HandleEvent) where
  acquire := fun (s, log) =>
    let (result, s) := executor.acquire s
    let event := match result with
      | .ok handle => .acquired handle
      | .error _ => .refused
    (result, s, log ++ [event])
  fetch handle request := fun (s, log) =>
    let (rows, s) := executor.fetch handle request s
    (rows, s, log ++ [.fetched handle])
  release handle := fun (s, log) =>
    ((), (executor.release handle s).2, log ++ [.released handle])

/-! ### Actions beside their logged forms -/

section Follows

variable {τ υ : Type} {rel : List Handle → τ → υ → Prop} {before : List Handle}

/-- Beside each other, two actions give the same and go from related states to related states;
`before` are the handles held at first, `after` those held at last. -/
def Follows (rel : List Handle → τ → υ → Prop) (before : List Handle) (x : StateM τ α)
    (y : StateM υ α) (after : α → List Handle) : Prop :=
  ∀ t u, rel before t u → (x t).1 = (y u).1 ∧ rel (after (y u).1) (x t).2 (y u).2

theorem Follows.pure {after : α → List Handle} {a : α} (h : after a = before) :
    Follows rel before (pure a) (pure a) after :=
  fun _ _ related => ⟨rfl, h ▸ related⟩

theorem Follows.bind {x : StateM τ α} {y : StateM υ α} {f : α → StateM τ β} {g : α → StateM υ β}
    {between : α → List Handle} {after : β → List Handle}
    (first : Follows rel before x y between)
    (rest : ∀ a, Follows rel (between a) (f a) (g a) after) :
    Follows rel before (x >>= f) (y >>= g) after := by
  intro t u related
  obtain ⟨same, related'⟩ := first t u related
  rcases hx : x t with ⟨a, t'⟩
  rcases hy : y u with ⟨b, u'⟩
  rw [hx, hy] at same related'
  obtain rfl : a = b := same
  have outcome := rest a t' u' related'
  simp only [Bind.bind, StateT.bind, hx, hy]
  exact outcome

end Follows

/-- The state and the log of a logged executor beside the state of the executor. -/
def Keeps (held : List Handle) (t : σ × List HandleEvent) (s : σ) : Prop :=
  t.1 = s ∧ HandleEvent.held? t.2 = some held

variable {executor : Executor σ} {held : List Handle} {handle : Handle}

theorem follows_acquire : Follows Keeps held executor.logged.acquire executor.acquire
    fun | .ok handle => handle :: held | .error _ => held := by
  rintro ⟨s, log⟩ _ ⟨rfl, hlog⟩
  refine ⟨rfl, rfl, ?_⟩
  change HandleEvent.held? (log ++ [_]) = _
  rw [HandleEvent.held?_concat _ hlog]
  cases (executor.acquire s).1 <;> rfl

theorem follows_fetch (mem : handle ∈ held) (request : FetchRequest) :
    Follows Keeps held (executor.logged.fetch handle request) (executor.fetch handle request)
      fun _ => held := by
  rintro ⟨s, log⟩ _ ⟨rfl, hlog⟩
  refine ⟨rfl, rfl, ?_⟩
  change HandleEvent.held? (log ++ [_]) = _
  rw [HandleEvent.held?_concat _ hlog, HandleEvent.heldAfter?, if_pos mem]

theorem follows_release (mem : handle ∈ held) :
    Follows Keeps held (executor.logged.release handle) (executor.release handle)
      fun _ => held.erase handle := by
  rintro ⟨s, log⟩ _ ⟨rfl, hlog⟩
  refine ⟨rfl, rfl, ?_⟩
  change HandleEvent.held? (log ++ [_]) = _
  rw [HandleEvent.held?_concat _ hlog, HandleEvent.heldAfter?, if_pos mem]

/-- Beside all handles that are held, one is taken for a single request and given back. -/
theorem follows_fetchOnce (request : FetchRequest) :
    Follows Keeps held (executor.logged.fetchOnce request) (executor.fetchOnce request)
      fun _ => held := by
  refine follows_acquire.bind fun result => ?_
  cases result with
  | error e => exact .pure rfl
  | ok handle =>
    refine (follows_fetch List.mem_cons_self request).bind fun rows => ?_
    refine (follows_release List.mem_cons_self).bind fun _ => .pure ?_
    exact (List.erase_cons_head handle held).symm

end EntityQuery
