import EntityQuery.Proofs.Libraries.Plain
import EntityQuery.Proofs.Pipeline.Determinism
import EntityQuery.Proofs.Pipeline.Lifecycle
import EntityQuery.Proofs.Pipeline.StableSort

/-! What a pipeline brings. Elements and failures pulled one at a time are those of lists to which
the steps are applied as functions, one after another; a failure is neither dropped nor counted on
its way, and the first one is what the list of a pipeline fails with. -/
namespace EntityQuery

variable {σ : Type} {engine : Engine σ} {extents : Extents} {rest : Origin → List Item → σ → Prop}

/-- Pulled until it ends, a feed brings its items. -/
theorem Feed.pulls_of_brings [Libraries] {n : Nat} {stages : List Stage} {l l' : List Item}
    (h : Brings engine rest n stages l l') (enough : n ≤ engine.steps) {origin : Origin}
    {session : Session σ} (hs : rest origin l session.executor) :
    (pulls engine (l'.length + 1) ⟨stages, origin⟩ session).1.1 = l'.map some ++ [none] := by
  induction l' generalizing stages l origin session with
  | nil =>
    obtain ⟨stages', origin', session', left, pulled, -, -⟩ := nextWithin_of_brings h enough hs
    simp only [List.length_nil, pulls, next, bind, StateT.bind, pulled]
    rfl
  | cons item l' ih =>
    obtain ⟨stages', origin', session', left, pulled, hs', later⟩ :=
      nextWithin_of_brings h enough hs
    have others := ih (later.resolve_left nofun) hs'
    rw [List.length_cons, pulls]
    simp only [next, bind, StateT.bind, pulled]
    exact congrArg (some item :: ·) others

namespace Pipeline

/-- The list of a pipeline is its feed collected. -/
theorem toList_of_feed [Libraries] {p : Pipeline} {executor : Executor σ} {feed : Feed}
    {start session : Session σ} (opened : p.feed executor start = (.ok feed, session)) :
    (p.toList executor start).1 = (feed.collect (p.engine executor) .ok session).1 := by
  simp only [toList, collectAs, bind, StateT.bind, opened]
  rfl

/-- Stages refine functions on lists. Whatever steps the items of an origin take on an engine whose
loads do not change, what is pulled until the end is what the steps make of the list of those items;
the list of a pipeline is that list if it has no failure, and otherwise its first failure. A sort
keeps all elements and, where their keys have an order, sorts them stably. -/
theorem refines_steps [Libraries] [Libraries.SortsStably] {steps : List Step} {l : List Item}
    (steady : engine.Steady extents rest)
    (enough : l.length + 1 + Feed.requests extents steps l ≤ engine.steps) {origin : Origin}
    {session : Session σ} (hs : rest origin l session.executor) :
    (Feed.pulls engine ((Step.itemsAll extents steps l).length + 1) (Feed.ofSteps steps origin)
      session).1.1 = (Step.itemsAll extents steps l).map some ++ [none] ∧
    (∀ (p : Pipeline) (start : Session σ), p.engine engine.executor = engine →
      p.feed engine.executor start = (.ok (Feed.ofSteps steps origin), session) →
      (∀ vs, (p.toList engine.executor start).1 = .ok vs ↔
        Step.itemsAll extents steps l = vs.map .ok) ∧
      ∀ e, (p.toList engine.executor start).1 = .error e ↔ ∃ (vs : List Value) (after : List Item),
        Step.itemsAll extents steps l = vs.map .ok ++ .error e :: after) ∧
    ∀ (key : ClientFunction) (direction : Direction) (l : List Item) keyed,
      l.mapM (Item.keyed extents key) = .ok keyed → ∃ sorted : List Value,
        (Step.sort key direction).items extents l = sorted.map .ok ∧
        sorted.Perm (keyed.map Prod.snd) ∧
        (OrderedOn direction.orderKeys keyed → ∃ ranked, sorted = ranked.map Prod.snd ∧
          StableSort direction.orderKeys keyed ranked) := by
  refine ⟨Feed.pulls_of_brings (Feed.brings_ofSteps steady steps l) enough hs, ?_, ?_⟩
  · intro p start same opened
    have collected := toList_of_feed opened
    rw [same, Feed.collect_of_steady steady enough .ok hs] at collected
    rw [collected]
    exact ⟨fun vs => Item.collect_eq_ok_iff, fun e => Item.collect_eq_error_iff⟩
  · intro key direction l keyed hkeyed
    refine ⟨direction.sort keyed, ?_, Direction.sort_perm, Direction.sort_stable⟩
    rw [Step.items, hkeyed]
    rfl

/-- One debt, behind that of the first customer. -/
def laterDebt : Pipeline :=
  { customers with steps := [.map (.traced owedTrace), .skip 1, .limit 1] }

/-- Three rows, of which the second is too wide. -/
def misshapen : List Row :=
  [[customerOwing 0 true], [customerOwing 0 true, .null], [customerOwing 1 false]]

def misshapenItems : List Item := misshapen.map Nesting.leaf.assemble

open Libraries.Plain in
theorem laterDebt_items (extents : Extents) :
    Step.itemsAll extents laterDebt.steps misshapenItems =
      [.error (.rowShape 1 2), .ok (.int 1)] := rfl

open Libraries.Plain in
/-- The failure of the second row is not skipped and takes the place of no element. -/
theorem refines_steps_misshapen :
    let script := Scripted.respond {} "SELECT A FROM Customer A" misshapen
    ∃ feed session, laterDebt.feed Scripted.executor ⟨script, []⟩ = (.ok feed, session) ∧
      (feed.pulls (laterDebt.engine Scripted.executor) 3 session).1.1 =
        [some (.error (.rowShape 1 2)), some (.ok (.int 1)), none] ∧
      (laterDebt.toList Scripted.executor ⟨script, []⟩).1 = .error (.rowShape 1 2) := by
  intro script
  obtain ⟨q, compiled, leaf, whole, text⟩ : ∃ q, laterDebt.compile = .ok q ∧ q.nesting = .leaf ∧
      q.window = {} ∧ q.text = "SELECT A FROM Customer A" :=
    ⟨_, rfl, rfl, rfl, by decide +kernel⟩
  let cursor : Cursor := { query := q, pageSize := none, handle := some 1 }
  let session : Session Scripted := ⟨(Scripted.acquire script).2, []⟩
  have opened : laterDebt.feed Scripted.executor ⟨script, []⟩ =
      (.ok (Feed.ofSteps laterDebt.steps (.rows cursor .leaf)), session) := by
    rw [Pipeline.feed, compiled, ← leaf]
    rfl
  have answered : script.reply ⟨q.text, q.params, q.window⟩ = .ok misshapen := by
    rw [text, whole]
    rfl
  have fetched : (Executor.answering script.reply).fetch 1 ⟨q.text, q.params, q.window⟩ () =
      (.ok misshapen, ()) := congrArg (·, ()) answered
  have window : cursor.nextWindow? = some q.window := by
    rw [Cursor.nextWindow?, whole]
    rfl
  have filled := Cursor.fill_last (c := cursor) rfl window fetched rfl
  have brings : (Origin.rows cursor .leaf).alone script.reply =
      (.item (.ok (customerOwing 0 true)), .rows { cursor with
        handle := none, received := 3, buffer := misshapen.tail } .leaf) := by
    simp only [Origin.alone, Origin.next, Session.onExecutor, bind, StateT.bind,
      Cursor.next_of_fill rfl rfl filled]
    rfl
  have yields : Origin.Yields script.reply (.rows cursor .leaf) misshapenItems :=
    .item brings (Origin.yields_closed rfl .leaf)
  have steady : (laterDebt.engine Scripted.executor).Steady
      (extentsOf laterDebt.dialect script.reply) _ := script.deterministic.steady laterDebt.dialect
  have enough : misshapenItems.length + 1 +
      Feed.requests (extentsOf laterDebt.dialect script.reply) laterDebt.steps misshapenItems ≤
      (laterDebt.engine Scripted.executor).steps := by
    decide +kernel
  have held : session.executor.reply = script.reply ∧ ∀ handle,
      (Origin.rows cursor .leaf).handles.count handle ≤ session.executor.opened.count handle :=
    ⟨rfl, fun _ => Nat.le_refl _⟩
  have refined := refines_steps steady enough ⟨held, yields⟩
  rw [laterDebt_items] at refined
  obtain ⟨pulled, listed, -⟩ := refined
  simp only [List.length_cons, List.length_nil, Nat.reduceAdd] at pulled
  refine ⟨_, _, opened, ?_, ?_⟩
  · exact pulled
  · exact ((listed laterDebt _ rfl opened).2 _).2 ⟨[], [.ok (.int 1)], rfl⟩

end Pipeline
end EntityQuery
