import EntityQuery.Proofs.Pipeline.Items

/-! Feeds refine functions on lists. The stages of a feed hand items on one at a time, each asked
again and again, and each with a state of its own. Asked until it ends, the feed brings the list that
its steps, applied one after another, make of what its origin brings. -/
namespace EntityQuery

variable [Libraries] {σ : Type} {engine : Engine σ} {extents : Extents}

/-- `rest origin l s` says that from the state `s` on the origin brings `l`, whatever entities are
loaded in between. Loads bring the extents. -/
structure Engine.Steady (engine : Engine σ) (extents : Extents)
    (rest : Origin → List Item → σ → Prop) : Prop where
  item : ∀ {origin item l} {session : Session σ}, rest origin (item :: l) session.executor →
    ∃ origin' session', origin.next engine.executor session =
      ((.item item, origin'), session') ∧ rest origin' l session'.executor
  ends : ∀ {origin} {session : Session σ}, rest origin [] session.executor →
    ∃ origin' session', origin.next engine.executor session = ((.done, origin'), session') ∧
      rest origin' [] session'.executor
  close : ∀ {origin l} {session : Session σ}, rest origin l session.executor →
    ∃ origin' l' session', origin.close engine.executor session = (origin', session') ∧
      rest origin' l' session'.executor
  loads : ∀ origin l, engine.Loads extents (rest origin l)

/-- An engine whose loads bring the extents is steady where the items are at hand. -/
theorem Engine.Loads.steady {inv : σ → Prop} (loads : engine.Loads extents inv) :
    engine.Steady extents fun origin l s => origin = .items l ∧ inv s where
  item := by
    rintro _ item l session ⟨rfl, hs⟩
    exact ⟨.items l, session, rfl, rfl, hs⟩
  ends := by
    rintro _ session ⟨rfl, hs⟩
    exact ⟨.items [], session, rfl, rfl, hs⟩
  close := by
    rintro _ l session ⟨rfl, hs⟩
    exact ⟨.items l, l, session, rfl, rfl, hs⟩
  loads := by
    rintro origin l entity s ⟨same, hs⟩
    exact ⟨(loads entity s hs).1, same, (loads entity s hs).2⟩

namespace Feed

variable {rest : Origin → List Item → σ → Prop}

/-- Asked `n` times at most, stages over an origin that brings `l` bring `l'` and then the end.
Between two requests entities may be loaded. -/
def Brings (engine : Engine σ) (rest : Origin → List Item → σ → Prop) :
    Nat → List Stage → List Item → List Item → Prop
  | 0, _, _, _ => False
  | n + 1, stages, l, l' => ∀ origin session, rest origin l session.executor →
    ∃ event stages' origin' session' left left',
      ask engine stages origin session = ((event, stages', origin'), session') ∧
      rest origin' left session'.executor ∧ event.Leaves l' left' ∧
      (event = .done ∨ Brings engine rest n stages' left left')

theorem Brings.succ {n : Nat} {stages : List Stage} {l l' : List Item}
    (h : Brings engine rest n stages l l') : Brings engine rest (n + 1) stages l l' := by
  induction n generalizing stages l l' with
  | zero => exact h.elim
  | succ n ih =>
    intro origin session hs
    obtain ⟨event, stages', origin', session', left, left', asked, hs', leaves, later⟩ :=
      h origin session hs
    exact ⟨event, stages', origin', session', left, left', asked, hs', leaves, later.imp_right ih⟩

/-- A stage that is ready leaves what comes before it alone. -/
theorem ask_ready {stage stage' : Stage} {before : List Stage} {origin : Origin} {event : Event}
    {session : Session σ} (ready : stage.ready? = some (event, stage')) :
    ask engine (stage :: before) origin session =
      ((event, stage' :: before, origin), session) := by
  rw [ask, ready]
  rfl

/-- A stage that is ready hands on the first of its items, or ends for want of one. -/
theorem brings_of_ready {n : Nat} {stage stage' : Stage} {before : List Stage} {l l₀ : List Item}
    {event : Event} (ready : stage.ready? = some (event, stage')) (holds : stage.Holds extents)
    (later : stage'.Holds extents →
      (stage'.items extents l₀).length < (stage.items extents l₀).length →
      Brings engine rest n (stage' :: before) l (stage'.items extents l₀)) :
    Brings engine rest (n + 1) (stage :: before) l (stage.items extents l₀) := by
  intro origin session hs
  obtain ⟨moves, holds', leaves⟩ := Stage.leaves_ready holds ready
  refine ⟨event, stage' :: before, origin, session, l, stage'.items extents l₀, ask_ready ready,
    hs, leaves l₀, ?_⟩
  match event, leaves l₀ with
  | .item item, brought =>
    refine .inr (later holds' ?_)
    rw [brought, List.length_cons]
    exact Nat.lt_succ_self _
  | .again, _ => exact absurd rfl moves
  | .done, _ => exact .inl rfl

/-- A detached stage brings what it has. -/
theorem brings_detached {n : Nat} {stage : Stage} {before : List Stage} {l : List Item}
    (detached : stage.isDetached = true) (holds : stage.Holds extents) (l₀ : List Item)
    (enough : (stage.items extents l₀).length < n) :
    Brings engine rest n (stage :: before) l (stage.items extents l₀) := by
  induction n generalizing stage with
  | zero => omega
  | succ n ih =>
    obtain ⟨event, stage', ready, detached'⟩ := Stage.ready_of_isDetached detached
    exact brings_of_ready ready holds fun holds' fewer => ih detached' holds' (by omega)

section Steady

variable (steady : engine.Steady extents rest)
include steady

/-- A stage that waits is handed what comes before it. Once it is detached nothing is known of what
is left before it. -/
theorem ask_waiting {stage stage' : Stage} {before before' : List Stage} {origin origin' : Origin}
    {event event' : Event} {session session' session'' : Session σ} {left : List Item}
    (waits : stage.ready? = none)
    (asked : ask engine before origin session = ((event, before', origin'), session'))
    (received : stage.receive engine event session' = ((event', stage'), session''))
    (hs : rest origin' left session''.executor) :
    ∃ closed left' after, ask engine (stage :: before) origin session =
        ((event', stage' :: before', closed), after) ∧ rest closed left' after.executor ∧
      (stage'.isDetached = true ∨ left' = left) := by
  rw [ask, waits]
  simp only [bind, StateT.bind, asked, received]
  cases detached : stage'.isDetached with
  | true =>
    obtain ⟨closed, left', after, closes, hs'⟩ := steady.close hs
    refine ⟨closed, left', after, ?_, hs', .inl rfl⟩
    rw [if_pos rfl, StateT.bind, closes]
    rfl
  | false => exact ⟨origin', left, session'', rfl, hs, .inr rfl⟩

/-- An origin brings its items. -/
theorem brings_origin (l : List Item) : Brings engine rest (l.length + 1) [] l l := by
  induction l with
  | nil =>
    intro origin session hs
    obtain ⟨origin', session', brought, hs'⟩ := steady.ends hs
    refine ⟨.done, [], origin', session', [], [], ?_, hs', rfl, .inl rfl⟩
    simp only [ask, bind, StateT.bind, brought]
    rfl
  | cons item l ih =>
    intro origin session hs
    obtain ⟨origin', session', brought, hs'⟩ := steady.item hs
    refine ⟨.item item, [], origin', session', l, l, ?_, hs', rfl, .inr ih⟩
    simp only [ask, bind, StateT.bind, brought]
    rfl

/-- A stage makes of what is brought to it what it stands for. With each request it takes something
from before it, or hands on one of the items that it is to bring. -/
theorem brings_stage {n m : Nat} {stage : Stage} {before : List Stage} {l l₀ : List Item}
    (hb : Brings engine rest n before l l₀) (holds : stage.Holds extents)
    (enough : n + (stage.items extents l₀).length < m) :
    Brings engine rest m (stage :: before) l (stage.items extents l₀) := by
  induction m generalizing n stage before l l₀ with
  | zero => omega
  | succ m ih =>
    cases hready : stage.ready? with
    | some ready =>
      exact brings_of_ready hready holds fun holds' fewer => ih hb holds' (by omega)
    | none =>
      cases n with
      | zero => exact hb.elim
      | succ n =>
        intro origin session hs
        obtain ⟨event, before', origin', session', left, left₀, asked, hs', leaves, later⟩ :=
          hb origin session hs
        obtain ⟨event', stage', session'', received, hs'', holds', leaves', ends⟩ :=
          Stage.leaves_receive (steady.loads origin' left) holds hready leaves hs'
        obtain ⟨closed, left', after, asked', kept, closes⟩ :=
          ask_waiting steady hready asked received hs''
        refine ⟨event', stage' :: before', closed, after, left', stage'.items extents left₀,
          asked', kept, leaves', ?_⟩
        by_cases ended : event' = .done
        · exact .inl ended
        · have shorter := leaves'.length_le ended
          refine .inr ?_
          by_cases detached : stage'.isDetached = true
          · exact brings_detached detached holds' left₀ (by omega)
          · obtain rfl := closes.resolve_left detached
            have later := later.resolve_left fun done => (ends done).elim ended detached
            exact ih later holds' (by omega)

end Steady

/-- How often stages are asked at most, besides what is before them: for each item of each list that
a step makes, and for its end. -/
def requests (extents : Extents) : List Step → List Item → Nat
  | [], _ => 0
  | step :: steps, l =>
    (step.items extents l).length + 1 + requests extents steps (step.items extents l)

/-- Stages one after another make what their steps make. -/
theorem brings_steps (steady : engine.Steady extents rest) {steps : List Step} {n : Nat}
    {before : List Stage} {l l₀ : List Item} (hb : Brings engine rest n before l l₀) :
    Brings engine rest (n + requests extents steps l₀)
      ((steps.map Step.start).reverse ++ before) l (Step.itemsAll extents steps l₀) := by
  induction steps generalizing n before l₀ with
  | nil => exact hb
  | cons step steps ih =>
    have first : Brings engine rest (n + ((step.items extents l₀).length + 1))
        (step.start :: before) l (step.items extents l₀) := by
      rw [← Stage.items_start]
      exact brings_stage steady hb (Stage.holds_start step) (Nat.lt_succ_self _)
    have later := ih first
    rw [List.map_cons, List.reverse_cons, List.append_assoc]
    rw [Nat.add_assoc] at later
    exact later

/-- A feed brings what its steps make of the items of its origin. -/
theorem brings_ofSteps (steady : engine.Steady extents rest) (steps : List Step) (l : List Item) :
    Brings engine rest (l.length + 1 + requests extents steps l) (steps.map Step.start).reverse l
      (Step.itemsAll extents steps l) := by
  rw [← List.append_nil (steps.map Step.start).reverse]
  exact brings_steps steady (brings_origin steady l)

/-! ### Feeds that are pulled or collected -/

theorem advance_of_ask {stages stages' : List Stage} {origin origin' : Origin} {event : Event}
    {session session' : Session σ}
    (asked : ask engine stages origin session = ((event, stages', origin'), session')) :
    advance engine ⟨stages, origin⟩ session = ((event, ⟨stages', origin'⟩), session') := by
  simp only [advance, bind, StateT.bind, asked]
  rfl

/-- A feed that brings items is pulled for the first of them, or for the end. -/
theorem nextWithin_of_brings {n k : Nat} {stages : List Stage} {l l' : List Item}
    (h : Brings engine rest n stages l l') (enough : n ≤ k) {origin : Origin} {session : Session σ}
    (hs : rest origin l session.executor) :
    ∃ stages' origin' session' left, nextWithin engine k ⟨stages, origin⟩ session =
        ((l'.head?, ⟨stages', origin'⟩), session') ∧ rest origin' left session'.executor ∧
      (l' = [] ∨ Brings engine rest n stages' left l'.tail) := by
  induction n generalizing k stages l l' origin session with
  | zero => exact h.elim
  | succ n ih =>
    obtain ⟨k, rfl⟩ : ∃ k', k = k' + 1 := ⟨k - 1, by omega⟩
    obtain ⟨event, stages', origin', session', left, left', asked, hs', leaves, later⟩ :=
      h origin session hs
    simp only [nextWithin, bind, StateT.bind, advance_of_ask asked]
    match event, leaves with
    | .item item, rfl =>
      exact ⟨stages', origin', session', left, rfl, hs',
        .inr (later.resolve_left nofun).succ⟩
    | .again, rfl =>
      obtain ⟨stages'', origin'', session'', left'', pulled, hs'', later'⟩ :=
        ih (later.resolve_left nofun) (Nat.le_of_succ_le_succ enough) hs'
      exact ⟨stages'', origin'', session'', left'', pulled, hs'', later'.imp_right Brings.succ⟩
    | .done, rfl => exact ⟨stages', origin', session', left, rfl, hs', .inl rfl⟩

theorem collectWithin_item {α : Type} {read : Value → Except QueryError α} {k : Nat}
    {taken : List α} {feed feed' : Feed} {item : Item} {session session' : Session σ}
    (advanced : feed.advance engine session = ((.item item, feed'), session')) :
    collectWithin engine read (k + 1) taken feed session =
      match item.bind read with
      | .ok a => collectWithin engine read k (a :: taken) feed' session'
      | .error e => ((.error e, feed'), session') := by
  simp only [collectWithin, bind, StateT.bind, advanced]
  cases item.bind read <;> rfl

/-- Collecting reads the items up to the first failure. -/
theorem collectWithin_of_brings {α : Type} {n k : Nat} {stages : List Stage} {l l' : List Item}
    (h : Brings engine rest n stages l l') (enough : n ≤ k) (read : Value → Except QueryError α)
    (taken : List α) {origin : Origin} {session : Session σ}
    (hs : rest origin l session.executor) :
    (collectWithin engine read k taken ⟨stages, origin⟩ session).1.1 =
      (Item.collect read l').map (taken.reverse ++ ·) := by
  induction n generalizing k stages l l' taken origin session with
  | zero => exact h.elim
  | succ n ih =>
    obtain ⟨k, rfl⟩ : ∃ k', k = k' + 1 := ⟨k - 1, by omega⟩
    obtain ⟨event, stages', origin', session', left, left', asked, hs', leaves, later⟩ :=
      h origin session hs
    have advanced := advance_of_ask asked
    match event, leaves with
    | .item item, rfl =>
      rw [collectWithin_item advanced, Item.collect_cons]
      cases item.bind read with
      | error e => rfl
      | ok a =>
        refine (ih (later.resolve_left nofun) (Nat.le_of_succ_le_succ enough) (a :: taken)
          hs').trans ?_
        cases Item.collect read left' with
        | error e => rfl
        | ok more => simp [Except.map, Except.bind]
    | .again, rfl =>
      simp only [collectWithin, bind, StateT.bind, advanced]
      exact ih (later.resolve_left nofun) (Nat.le_of_succ_le_succ enough) taken hs'
    | .done, rfl =>
      simp only [collectWithin, bind, StateT.bind, advanced]
      exact congrArg Except.ok (List.append_nil _).symm

/-- With steps enough for each request, a feed is collected to what its steps make of the items of
its origin, up to the first failure. -/
theorem collect_of_steady {α : Type} (steady : engine.Steady extents rest) {steps : List Step}
    {l : List Item} (enough : l.length + 1 + requests extents steps l ≤ engine.steps)
    (read : Value → Except QueryError α) {origin : Origin} {session : Session σ}
    (hs : rest origin l session.executor) :
    (collect engine read (ofSteps steps origin) session).1 =
      Item.collect read (Step.itemsAll extents steps l) := by
  refine (collectWithin_of_brings (brings_ofSteps steady steps l) enough read [] hs).trans ?_
  cases Item.collect read (Step.itemsAll extents steps l) <;> rfl

end Feed
end EntityQuery
