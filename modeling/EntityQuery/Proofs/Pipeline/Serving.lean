import EntityQuery.Proofs.Pipeline.Extents

/-! Functions called on a database. An engine serves a database when it loads the instances of each
entity type from it. A function then gives what it gives on the database itself, whatever has been
loaded before. -/
namespace EntityQuery

/-- The instances of each entity type. -/
abbrev Database := String → List Value

/-- Supplies entities from the database at hand. -/
def Database.source (db : Database) : EntitySource Unit := fun entity s => (.ok (db entity), s)

/-- What a function gives on a database. -/
def ClientFunction.on (f : ClientFunction) (db : Database) (arguments : List Value) :
    Except EvalError Value := (f.call db.source arguments [] ()).1

/-- As long as the state behind the executor satisfies `inv`, each load brings the instances of its
entity type. -/
def Engine.Serves [Libraries] {σ : Type} (engine : Engine σ) (db : Database)
    (inv : σ → Prop) : Prop :=
  ∀ entity s, inv s → (EntityLoader.load engine entity s).1 = .ok (db entity) ∧
    inv (EntityLoader.load engine entity s).2

/-- The extents of a database that is at hand are its instances. -/
def Database.extents (db : Database) : Extents := fun entity => .ok (db entity)

/-- A function that gives a value on a database gives it on the extents. -/
theorem ClientFunction.given_of_on {f : ClientFunction} {db : Database} {arguments : List Value}
    {v : Value} (h : f.on db arguments = .ok v) : f.given db.extents arguments = .ok v := by
  -- both runs have the same memo, and no failure is ever put down
  let Same (p : Progress Unit) (q : Progress (Option ExecutorError)) : Prop := p.memo = q.memo
  have parallel : Evaluation.Parallel Same :=
    ⟨fun _ _ h => h, fun _ _ _ h => h, fun _ _ entry h => congrArg (entry :: ·) h⟩
  have supplied (entity : String) (_ : f.Streams entity) : Evaluation.Matches Same Eq
      (Evaluation.entities db.source entity) (Evaluation.entities db.extents.source entity) := by
    intro p q same
    rw [Evaluation.run_entities, Evaluation.run_entities]
    exact ⟨rfl, same⟩
  have same := (Evaluation.matches_evaluation parallel f supplied arguments
    { calls := [], source := () } { calls := [], source := none } rfl).1.eq
  change ((f.evaluation db.source arguments).run { calls := [], source := () }).1 = .ok v at h
  rw [given, call]
  rcases hrun : (f.evaluation db.extents.source arguments).run { calls := [], source := none }
    with ⟨r, p⟩
  rw [hrun] at same
  obtain rfl : r = .ok v := same.symm.trans h
  rfl

namespace EntityLoader

variable {σ : Type} {engine : Engine σ} {db : Database} {inv : σ → Prop}

/-- An executor that answers with the instances, one to a row, makes an engine that serves. -/
theorem serves_of_answers [Libraries]
    (answers : ∀ entity s, inv s → ∀ q, query engine.dialect entity = .ok q →
      (engine.executor.fetchOnce ⟨q.text, q.params, q.window⟩ s).1 =
          .ok ((db entity).map fun v => [v]) ∧
        inv (engine.executor.fetchOnce ⟨q.text, q.params, q.window⟩ s).2) :
    engine.Serves db inv := by
  intro entity s hs
  obtain ⟨q, hq, leaf⟩ : ∃ q, query engine.dialect entity = .ok q ∧ q.nesting = .leaf :=
    ⟨_, rfl, rfl⟩
  obtain ⟨answered, kept⟩ := answers entity s hs q hq
  have assembled (vs : List Value) :
      (vs.map fun v => [v]).mapM q.nesting.assemble = .ok vs := by
    rw [leaf]
    induction vs with
    | nil => rfl
    | cons v vs ih => rw [List.map_cons, List.mapM_cons, ih]; rfl
  rcases hfetch : engine.executor.fetchOnce ⟨q.text, q.params, q.window⟩ s with ⟨r, s'⟩
  rw [hfetch] at answered kept
  obtain rfl : r = .ok ((db entity).map fun v => [v]) := answered
  have loaded : load engine entity s = (.ok (db entity), s') := by
    simp only [load, hq, bind, StateT.bind, hfetch]
    exact congrArg (·, s') (assembled (db entity))
  rw [loaded]
  exact ⟨rfl, kept⟩

end EntityLoader

end EntityQuery
