import EntityQuery.Pipeline.EntityLoader
import EntityQuery.Proofs.Dictionary
import EntityQuery.Proofs.Lambda.Matching

/-! Functions called where loads do not change. An engine loads extents when it gives the same answer
for each entity type whenever the type is loaded, be it its instances or a failure. What a function
gives is then determined by its arguments, whatever has been loaded before. -/
namespace EntityQuery

/-- What loading all instances of each entity type brings. -/
abbrev Extents := String → Except QueryError (List Value)

/-- Supplies the instances of each type. An executor's failure is put down, as a loader does. -/
def Extents.source (extents : Extents) : EntitySource (Option ExecutorError) := fun entity failure =>
  match extents entity with
  | .ok values => (.ok values, failure)
  | .error (.executor e) => (.error (.entitySource e.message), some e)
  | .error e => (.error (.entitySource e.message), failure)

/-- What a function gives for arguments, failures of loads included. -/
def ClientFunction.given (f : ClientFunction) (extents : Extents) (arguments : List Value) :
    Except QueryError Value :=
  match f.call extents.source arguments [] none with
  | (.error (.entitySource _), _, some e) => .error (.executor e)
  | (result, _, _) => result.mapError .evaluation

variable {σ : Type}

/-- From states that satisfy `inv` each load brings the extent of its entity type, and leads to such
a state. -/
def Engine.Loads [Libraries] (engine : Engine σ) (extents : Extents) (inv : σ → Prop) : Prop :=
  ∀ entity s, inv s → (EntityLoader.load engine entity s).1 = extents entity ∧
    inv (EntityLoader.load engine entity s).2

namespace EntityLoader

/-- What a loader has in its cache is what loads bring. -/
def Caches (loader : EntityLoader) (extents : Extents) : Prop :=
  ∀ entity values, loader.cache.find? entity = some values → extents entity = .ok values

/-- What a loader is like between calls. -/
structure Holds (loader : EntityLoader) (extents : Extents) : Prop where
  caches : loader.Caches extents
  idle : loader.failure = none

theorem holds_empty (extents : Extents) : Holds {} extents := ⟨nofun, rfl⟩

variable {engine : Engine σ} {extents : Extents} {inv : σ → Prop}

/-- Progress of a lambda that loads through an engine, beside that on the extents. -/
structure Alike (extents : Extents) (inv : σ → Prop) (p : Progress (σ × EntityLoader))
    (q : Progress (Option ExecutorError)) : Prop where
  memo : p.memo = q.memo
  state : inv p.source.1
  holds : p.source.2.Holds extents
  fresh : q.source = none

/-- What a failure leaves: that of an entity source may have put down an executor's failure. -/
def Leaves (extents : Extents) (inv : σ → Prop) (e : EvalError) (p : Progress (σ × EntityLoader))
    (q : Progress (Option ExecutorError)) : Prop :=
  inv p.source.1 ∧ p.source.2.Caches extents ∧ p.source.2.failure = q.source ∧
    ((∃ reason, e = .entitySource reason) ∨ q.source = none)

theorem parallel_alike : Evaluation.Parallel (Alike extents inv) where
  memo _ _ h := h.memo
  logged _ _ _ h := ⟨h.memo, h.state, h.holds, h.fresh⟩
  remembered _ _ entry h := ⟨congrArg (entry :: ·) h.memo, h.state, h.holds, h.fresh⟩

theorem Alike.leaves (e : EvalError) (p : Progress (σ × EntityLoader))
    (q : Progress (Option ExecutorError)) (h : Alike extents inv p q) :
    Leaves extents inv e p q :=
  ⟨h.state, h.holds.caches, h.holds.idle.trans h.fresh.symm, .inr h.fresh⟩

/-- A loader supplies an extent from its cache or from the engine, and puts down what an extent
does. -/
theorem simulates_entities [Libraries] (loads : engine.Loads extents inv) (entity : String) :
    Evaluation.Simulates (Alike extents inv) (Leaves extents inv) Eq
      (Evaluation.entities (entities engine) entity)
      (Evaluation.entities extents.source entity) := by
  rintro ⟨memo, calls, s, loader⟩ ⟨_, calls', _⟩ ⟨rfl, hs, holds, rfl⟩
  rw [Evaluation.run_entities, Evaluation.run_entities]
  dsimp only at hs holds ⊢
  obtain ⟨brought, kept⟩ := loads entity s hs
  cases hcache : loader.cache.find? entity with
  | some values =>
    have known : extents entity = .ok values := holds.caches entity values hcache
    simp only [entities, hcache, Extents.source, known]
    exact .ok rfl ⟨rfl, hs, holds, rfl⟩
  | none =>
    rcases hload : load engine entity s with ⟨r, s'⟩
    rw [hload] at brought kept
    obtain rfl : r = extents entity := brought
    cases hextent : extents entity with
    | ok values =>
      rw [hextent] at hload
      simp only [entities, hcache, hload, Extents.source, hextent]
      refine .ok rfl ⟨rfl, kept, ⟨fun other values found => ?_, holds.idle⟩, rfl⟩
      rw [Dictionary.find?_insert] at found
      split at found
      · next same => rw [same, hextent, Option.some.inj found]
      · exact holds.caches other values found
    | error e =>
      rw [hextent] at hload
      cases e with
      | executor e =>
        simp only [entities, hcache, hload, Extents.source, hextent]
        exact .error ⟨kept, holds.caches, rfl, .inl ⟨_, rfl⟩⟩
      | _ =>
        simp only [entities, hcache, hload, Extents.source, hextent]
        exact .error ⟨kept, holds.caches, holds.idle, .inr rfl⟩

/-- Through a loader a function gives what it gives on the extents. -/
theorem call_eq [Libraries] (loads : engine.Loads extents inv) {loader : EntityLoader}
    {session : Session σ} (holds : loader.Holds extents) (hs : inv session.executor)
    (f : ClientFunction) (arguments : List Value) :
    ∃ loader' session', loader.call engine f arguments session =
      ((f.given extents arguments, loader'), session') ∧
      loader'.Holds extents ∧ inv session'.executor := by
  have ends := Evaluation.simulates_evaluation parallel_alike Alike.leaves f
    (fun entity _ => simulates_entities loads entity) arguments
    { calls := session.calls, source := (session.executor, loader) }
    { calls := [], source := none } ⟨rfl, hs, holds, rfl⟩
  rw [call, ClientFunction.given, ClientFunction.call, ClientFunction.call]
  rcases hrun : (f.evaluation (entities engine) arguments).run
    { calls := session.calls, source := (session.executor, loader) } with ⟨r, p⟩
  rcases hrun' : (f.evaluation extents.source arguments).run
    { calls := [], source := none } with ⟨r', q⟩
  rw [hrun, hrun'] at ends
  cases ends with
  | ok result kept =>
    subst result
    exact ⟨p.source.2, ⟨p.source.1, p.calls⟩, rfl, kept.holds, kept.state⟩
  | @error e _ _ leaves =>
    obtain ⟨state, caches, same, reported⟩ := leaves
    obtain ⟨memo, calls, s, loader'⟩ := p
    obtain ⟨memo', calls', failure⟩ := q
    obtain rfl : loader'.failure = failure := same
    by_cases source : ∃ reason, e = .entitySource reason
    · obtain ⟨reason, rfl⟩ := source
      refine ⟨{ loader' with failure := none }, ⟨s, calls⟩, ?_, ⟨caches, rfl⟩, state⟩
      dsimp only
      cases loader'.failure <;> rfl
    · have idle : loader'.failure = none := reported.resolve_left source
      refine ⟨loader', ⟨s, calls⟩, ?_, ⟨caches, idle⟩, state⟩
      cases e with
      | entitySource reason => exact absurd ⟨reason, rfl⟩ source
      | _ => rfl

end EntityLoader

end EntityQuery
