import EntityQuery.Pipeline.Feed
import EntityQuery.Proofs.Pipeline.Extents

/-! Steps as functions on lists of elements and failures. A stage stands for such a function too: it
takes what is still to come from before it to what it is still to bring. Whatever a stage is handed,
the event that it makes of it and what it stands for afterwards add up to what it stood for. -/
namespace EntityQuery

/-- What a feed brings: an element, or a failure in place of one. -/
abbrev Item := Except QueryError Value

namespace Item

variable (extents : Extents) (f : ClientFunction)

/-- A failure stays what it is; so it does in the functions that follow. -/
def mapped (item : Item) : Item := item.bind fun v => f.given extents [v]

/-- An element that is kept, or the failure in its place. -/
def filtered : Item → Option Item
  | .error e => some (.error e)
  | .ok v =>
    match f.given extents [v] with
    | .ok (.bool true) => some (.ok v)
    | .ok (.bool false) => none
    | .ok other => some (.error (Stage.mismatch "where" other))
    | .error e => some (.error e)

/-- The pairs of an element with the items of its list, or the failure in place of them all. -/
def joined : Item → List Item
  | .error e => [.error e]
  | .ok v =>
    match (f.given extents [v, .null]).bind (Stage.pairs v) with
    | .ok pairs => pairs.map .ok
    | .error e => [.error e]

/-- An element behind its key. -/
def keyed (item : Item) : Except QueryError (Value × Value) :=
  item.bind fun v => (f.given extents [v]).map fun k => (k, v)

/-- Keyed elements in the order of their keys, or the failure in place of them all. -/
def sorted [Libraries] (direction : Direction) :
    Except QueryError (List (Value × Value)) → List Item
  | .ok keyed => (direction.sort keyed).map .ok
  | .error e => [.error e]

/-- Whether the key of an element is among these. -/
def keyIn [Libraries] (keys : List String) : Item → Bool
  | .ok v => keys.contains v.key
  | .error _ => false

/-- Of the elements of one key only the first. -/
def distinct [Libraries] : List Item → List Item
  | [] => []
  | .error e :: l => .error e :: distinct l
  | .ok v :: l => .ok v :: (distinct l).filter fun item => !item.keyIn [v.key]

/-- Without the first `n` elements. Failures are not counted. -/
def skip : Nat → List Item → List Item
  | 0, l => l
  | _ + 1, [] => []
  | n + 1, .error e :: l => .error e :: skip (n + 1) l
  | n + 1, .ok _ :: l => skip n l

/-- Up to the `n`-th element. Failures are not counted. -/
def limit : Nat → List Item → List Item
  | 0, _ => []
  | _ + 1, [] => []
  | n + 1, .error e :: l => .error e :: limit (n + 1) l
  | n + 1, .ok v :: l => .ok v :: limit n l

theorem skip_zero (l : List Item) : skip 0 l = l := by
  cases l <;> rfl

theorem limit_zero (l : List Item) : limit 0 l = [] := by
  cases l <;> rfl

theorem keyIn_cons [Libraries] (key : String) (keys : List String) (item : Item) :
    item.keyIn (key :: keys) = (item.keyIn [key] || item.keyIn keys) := by
  cases item with
  | ok v => simp [keyIn]
  | error e => rfl

/-- What is read of items one after another, up to the first failure. -/
def collect {α : Type} (read : Value → Except QueryError α) (l : List Item) :
    Except QueryError (List α) := l.mapM fun item => item.bind read

/-- Items are elements alone, or elements before a first failure. -/
theorem elements_or_failure (l : List Item) : (∃ vs : List Value, l = vs.map .ok) ∨
    ∃ (vs : List Value) (e : QueryError) (rest : List Item), l = vs.map .ok ++ .error e :: rest := by
  induction l with
  | nil => exact .inl ⟨[], rfl⟩
  | cons item l ih =>
    cases item with
    | error e => exact .inr ⟨[], e, l, rfl⟩
    | ok v =>
      obtain ⟨vs, rfl⟩ | ⟨vs, e, rest, rfl⟩ := ih
      · exact .inl ⟨v :: vs, rfl⟩
      · exact .inr ⟨v :: vs, e, rest, rfl⟩

theorem collect_cons {α : Type} (read : Value → Except QueryError α) (item : Item)
    (l : List Item) : collect read (item :: l) =
      (item.bind read).bind fun a => (collect read l).map (a :: ·) := by
  rw [collect, collect, List.mapM_cons]
  cases item.bind read with
  | error e => rfl
  | ok a => cases l.mapM fun item => item.bind read <;> rfl

theorem collect_elements (vs : List Value) : collect .ok (vs.map .ok) = .ok vs := by
  induction vs with
  | nil => rfl
  | cons v vs ih =>
    rw [List.map_cons, collect_cons, ih]
    rfl

theorem collect_failure (vs : List Value) (e : QueryError) (rest : List Item) :
    collect .ok (vs.map .ok ++ .error e :: rest) = .error e := by
  induction vs with
  | nil => exact collect_cons .ok (.error e) rest
  | cons v vs ih =>
    rw [List.map_cons, List.cons_append, collect_cons, ih]
    rfl

/-- All elements are collected if there is no failure. -/
theorem collect_eq_ok_iff {l : List Item} {vs : List Value} :
    collect .ok l = .ok vs ↔ l = vs.map .ok := by
  constructor
  · intro h
    obtain ⟨us, rfl⟩ | ⟨us, e, rest, rfl⟩ := elements_or_failure l
    · rw [collect_elements] at h
      rw [Except.ok.inj h]
    · rw [collect_failure] at h
      cases h
  · rintro rfl
    exact collect_elements vs

/-- Otherwise the first failure is. -/
theorem collect_eq_error_iff {l : List Item} {e : QueryError} :
    collect .ok l = .error e ↔
      ∃ (vs : List Value) (rest : List Item), l = vs.map .ok ++ .error e :: rest := by
  constructor
  · intro h
    obtain ⟨us, rfl⟩ | ⟨us, e', rest, rfl⟩ := elements_or_failure l
    · rw [collect_elements] at h
      cases h
    · rw [collect_failure] at h
      rw [← Except.error.inj h]
      exact ⟨us, rest, rfl⟩
  · rintro ⟨vs, rest, rfl⟩
    exact collect_failure vs e rest

end Item

/-- What a step makes of a list. -/
def Step.items [Libraries] (extents : Extents) : Step → List Item → List Item
  | map f, l => l.map (Item.mapped extents f)
  | filter f, l => l.filterMap (Item.filtered extents f)
  | flatMap f, l => l.flatMap (Item.joined extents f)
  | sort key direction, l => Item.sorted direction (l.mapM (Item.keyed extents key))
  | distinct, l => Item.distinct l
  | skip n, l => Item.skip n.toNat l
  | limit n, l => Item.limit n.toNat l

/-- What steps make of a list one after another. -/
def Step.itemsAll [Libraries] (extents : Extents) (steps : List Step) (l : List Item) : List Item :=
  steps.foldl (fun l step => step.items extents l) l

/-- What of the items to come an event leaves. -/
def Event.Leaves : Event → List Item → List Item → Prop
  | .item brought, l, l' => l = brought :: l'
  | .again, l, l' => l = l'
  | .done, l, _ => l = []

theorem Event.Leaves.length_le {event : Event} {l l' : List Item} (h : event.Leaves l l')
    (goes : event ≠ .done) : l'.length ≤ l.length := by
  match event, h with
  | .item _, rfl => exact Nat.le_succ _
  | .again, rfl => exact Nat.le_refl _
  | .done, _ => exact absurd rfl goes

namespace Stage

variable [Libraries] (extents : Extents)

/-- What a stage brings when `l` is still to come from before it. -/
def items : Stage → List Item → List Item
  | map f _, l => l.map (Item.mapped extents f)
  | filter f _, l => l.filterMap (Item.filtered extents f)
  | flatMap f _ pending finished, l =>
    pending.map .ok ++ if finished then [] else l.flatMap (Item.joined extents f)
  | collecting key direction _ keyed, l =>
    Item.sorted direction ((l.mapM (Item.keyed extents key)).map (keyed.reverse ++ ·))
  | sorted rest, _ => rest.map .ok
  | distinct seen, l => (Item.distinct l).filter fun item => !item.keyIn seen
  | skip n, l => Item.skip n l
  | limit n, l => Item.limit n l

/-- The loader of a stage, if it has one, holds what loads bring. -/
def Holds : Stage → Prop
  | map _ loader | filter _ loader | flatMap _ loader _ _ | collecting _ _ loader _ =>
    loader.Holds extents
  | _ => True

variable {extents}

omit [Libraries] in
theorem holds_start (step : Step) : step.start.Holds extents := by
  cases step <;> first | exact EntityLoader.holds_empty extents | exact trivial

theorem items_start (step : Step) (l : List Item) :
    step.start.items extents l = step.items extents l := by
  cases step with
  | sort key direction =>
    refine congrArg (Item.sorted direction) ?_
    cases l.mapM (Item.keyed extents key) <;> rfl
  | distinct =>
    refine (List.filter_eq_self.2 fun item _ => ?_)
    cases item <;> rfl
  | _ => rfl

omit [Libraries] in
/-- A detached stage is ready, and stays so. -/
theorem ready_of_isDetached {stage : Stage} (h : stage.isDetached = true) :
    ∃ event stage', stage.ready? = some (event, stage') ∧ stage'.isDetached = true := by
  match stage, h with
  | flatMap f loader [] true, rfl => exact ⟨_, _, rfl, rfl⟩
  | flatMap f loader (v :: pending) true, rfl => exact ⟨_, _, rfl, rfl⟩
  | sorted [], _ => exact ⟨_, _, rfl, rfl⟩
  | sorted (v :: rest), _ => exact ⟨_, _, rfl, rfl⟩

/-- What a stage has ready it was to bring, whatever is to come from before it. -/
theorem leaves_ready {stage stage' : Stage} {event : Event} (holds : stage.Holds extents)
    (ready : stage.ready? = some (event, stage')) :
    event ≠ .again ∧ stage'.Holds extents ∧
      ∀ l, event.Leaves (stage.items extents l) (stage'.items extents l) := by
  unfold ready? at ready
  split at ready <;> cases ready
  · exact ⟨nofun, holds, fun _ => rfl⟩
  · exact ⟨nofun, holds, fun _ => rfl⟩
  · exact ⟨nofun, trivial, fun _ => rfl⟩
  · exact ⟨nofun, trivial, fun _ => rfl⟩
  · exact ⟨nofun, trivial, Item.limit_zero⟩

theorem leaves_onFailure {stage : Stage} (holds : stage.Holds extents)
    (waits : stage.ready? = none) (e : QueryError) (l : List Item) :
    (stage.onFailure e).2.Holds extents ∧ (stage.onFailure e).1.Leaves
      (stage.items extents (.error e :: l)) ((stage.onFailure e).2.items extents l) := by
  match stage, waits with
  | map f loader, _ => exact ⟨holds, rfl⟩
  | filter f loader, _ => exact ⟨holds, rfl⟩
  | flatMap f loader [] false, _ => exact ⟨holds, rfl⟩
  | collecting key direction loader keyed, _ => exact ⟨trivial, rfl⟩
  | sorted rest, waits => cases rest <;> cases waits
  | distinct seen, _ => exact ⟨trivial, rfl⟩
  | skip 0, _ => exact ⟨trivial, by simp [onFailure, Event.Leaves, items, Item.skip_zero]⟩
  | skip (n + 1), _ => exact ⟨trivial, rfl⟩
  | limit (n + 1), _ => exact ⟨trivial, rfl⟩

/-- At the end of what is before it a stage ends too, or is detached to bring what it has. -/
theorem leaves_onEnd {stage : Stage} (holds : stage.Holds extents) (waits : stage.ready? = none) :
    (stage.onEnd.1 = .done ∨ stage.onEnd.2.isDetached = true) ∧ stage.onEnd.2.Holds extents ∧
      ∀ l, stage.onEnd.1.Leaves (stage.items extents []) (stage.onEnd.2.items extents l) := by
  match stage, waits with
  | map f loader, _ => exact ⟨.inl rfl, holds, fun _ => rfl⟩
  | filter f loader, _ => exact ⟨.inl rfl, holds, fun _ => rfl⟩
  | flatMap f loader [] false, _ => exact ⟨.inr rfl, holds, fun _ => rfl⟩
  | collecting key direction loader keyed, _ =>
    refine ⟨.inr rfl, trivial, fun _ => ?_⟩
    show Item.sorted direction (.ok (keyed.reverse ++ [])) = _
    rw [List.append_nil]
    rfl
  | sorted rest, waits => cases rest <;> cases waits
  | distinct seen, _ => exact ⟨.inl rfl, trivial, fun _ => rfl⟩
  | skip 0, _ => exact ⟨.inl rfl, trivial, fun _ => rfl⟩
  | skip (n + 1), _ => exact ⟨.inl rfl, trivial, fun _ => rfl⟩
  | limit (n + 1), _ => exact ⟨.inl rfl, trivial, fun _ => rfl⟩

variable {σ : Type} {engine : Engine σ} {inv : σ → Prop}

/-- An element whose key was seen is dropped, and one whose key is new is handed on. -/
theorem leaves_distinct (extents : Extents) (engine : Engine σ) (seen : List String) (v : Value)
    (l : List Item) (session : Session σ) : ∃ event seen',
      (distinct seen).onElement engine v session = ((event, distinct seen'), session) ∧
      event.Leaves ((distinct seen).items extents (.ok v :: l))
        ((distinct seen').items extents l) := by
  by_cases old : v.key ∈ seen
  · refine ⟨.again, seen, ?_, ?_⟩
    · rw [onElement, if_pos (List.contains_iff_mem.2 old)]
      rfl
    · have dropped : Item.keyIn seen (.ok v) = true := List.contains_iff_mem.2 old
      simp only [Event.Leaves, items, Item.distinct]
      rw [List.filter_cons_of_neg (by simp [dropped]), List.filter_filter]
      refine List.filter_congr fun item _ => ?_
      cases item with
      | error e => rfl
      | ok w => by_cases same : w.key = v.key <;> simp [Item.keyIn, same, old]
  · refine ⟨.item (.ok v), v.key :: seen, ?_, ?_⟩
    · rw [onElement, if_neg fun h => old (List.contains_iff_mem.1 h)]
      rfl
    · have kept : Item.keyIn seen (.ok v) = false := by simpa [Item.keyIn] using old
      simp only [Event.Leaves, items, Item.distinct]
      rw [List.filter_cons_of_pos (by simp [kept]), List.filter_filter]
      simp only [Item.keyIn_cons v.key seen, Bool.not_or, Bool.and_comm]

theorem leaves_onElement (loads : engine.Loads extents inv) {stage : Stage}
    (holds : stage.Holds extents) (waits : stage.ready? = none) (v : Value) (l : List Item)
    {session : Session σ} (hs : inv session.executor) :
    ∃ event stage' session', stage.onElement engine v session = ((event, stage'), session') ∧
      inv session'.executor ∧ stage'.Holds extents ∧
      event.Leaves (stage.items extents (.ok v :: l)) (stage'.items extents l) := by
  match stage, waits with
  | map f loader, _ =>
    obtain ⟨loader', session', called, holds', hs'⟩ := EntityLoader.call_eq loads holds hs f [v]
    refine ⟨.item (f.given extents [v]), map f loader', session', ?_, hs', holds', rfl⟩
    simp only [onElement, bind, StateT.bind, called]
    rfl
  | filter f loader, _ =>
    obtain ⟨loader', session', called, holds', hs'⟩ := EntityLoader.call_eq loads holds hs f [v]
    simp only [onElement, bind, StateT.bind, called]
    refine ⟨_, _, session', rfl, hs', holds', ?_⟩
    split <;> simp_all [Event.Leaves, items, Item.filtered]
  | flatMap f loader [] false, _ =>
    obtain ⟨loader', session', called, holds', hs'⟩ :=
      EntityLoader.call_eq loads holds hs f [v, .null]
    simp only [onElement, bind, StateT.bind, called]
    cases hpairs : (f.given extents [v, .null]).bind (pairs v) with
    | ok pairs =>
      refine ⟨.again, flatMap f loader' pairs false, session', rfl, hs', holds', ?_⟩
      simp [Event.Leaves, items, Item.joined, hpairs]
    | error e =>
      refine ⟨.item (.error e), flatMap f loader' [] false, session', rfl, hs', holds', ?_⟩
      simp [Event.Leaves, items, Item.joined, hpairs]
  | collecting key direction loader keyed, _ =>
    obtain ⟨loader', session', called, holds', hs'⟩ := EntityLoader.call_eq loads holds hs key [v]
    simp only [onElement, bind, StateT.bind, called]
    cases hkey : key.given extents [v] with
    | ok k =>
      refine ⟨.again, collecting key direction loader' ((k, v) :: keyed), session', rfl, hs',
        holds', congrArg (Item.sorted direction) ?_⟩
      rw [List.mapM_cons, show Item.keyed extents key (.ok v) = .ok (k, v) by
        simp [Item.keyed, hkey, Except.bind, Except.map]]
      cases l.mapM (Item.keyed extents key) with
      | ok more => simp [bind, pure, Except.bind, Except.pure, Except.map]
      | error e => rfl
    | error e =>
      refine ⟨.item (.error e), sorted [], session', rfl, hs', trivial, ?_⟩
      simp [Event.Leaves, items, Item.keyed, hkey, bind, Except.bind, Except.map, Item.sorted]
  | sorted rest, waits => cases rest <;> cases waits
  | distinct seen, _ =>
    obtain ⟨event, seen', received, leaves⟩ := leaves_distinct extents engine seen v l session
    exact ⟨event, distinct seen', session, received, hs, trivial, leaves⟩
  | skip 0, _ =>
    exact ⟨.item (.ok v), skip 0, session, rfl, hs, trivial,
      by simp [Event.Leaves, items, Item.skip_zero]⟩
  | skip (n + 1), _ => exact ⟨.again, skip n, session, rfl, hs, trivial, rfl⟩
  | limit (n + 1), _ => exact ⟨.item (.ok v), limit n, session, rfl, hs, trivial, rfl⟩

/-- What a stage that waits makes of an event: of the items that it was to bring, its own event
leaves those that it is to bring of what the event left. -/
theorem leaves_receive (loads : engine.Loads extents inv) {stage : Stage}
    (holds : stage.Holds extents) (waits : stage.ready? = none) {event : Event} {l l' : List Item}
    (leaves : event.Leaves l l') {session : Session σ} (hs : inv session.executor) :
    ∃ event' stage' session', stage.receive engine event session = ((event', stage'), session') ∧
      inv session'.executor ∧ stage'.Holds extents ∧
      event'.Leaves (stage.items extents l) (stage'.items extents l') ∧
      (event = .done → event' = .done ∨ stage'.isDetached = true) := by
  match event, leaves with
  | .item (.ok v), rfl =>
    obtain ⟨event', stage', session', received, hs', holds', leaves'⟩ :=
      leaves_onElement loads holds waits v l' hs
    exact ⟨event', stage', session', received, hs', holds', leaves', nofun⟩
  | .item (.error e), rfl =>
    obtain ⟨holds', leaves'⟩ := leaves_onFailure holds waits e l'
    exact ⟨_, _, session, rfl, hs, holds', leaves', nofun⟩
  | .again, rfl => exact ⟨.again, stage, session, rfl, hs, holds, rfl, nofun⟩
  | .done, rfl =>
    obtain ⟨ends, holds', leaves'⟩ := leaves_onEnd holds waits
    exact ⟨_, _, session, rfl, hs, holds', leaves' l', fun _ => ends⟩

end Stage
end EntityQuery
