import EntityQuery.Libraries.Plain
import EntityQuery.Pipeline.Run
import EntityQuery.Proofs.Pipeline.Merging
import Mathlib.Logic.Relation

/-! How pipelines change. An operation or a hint has one of a few effects, and from these follows
what holds of every pipeline however it was built: what runs on the client never goes back into the
query, and of several failures the first one stays. -/
namespace EntityQuery.Pipeline

/-- Pipelines that one operation or one hint that is accepted makes of another. -/
inductive Change (p : Pipeline) : Pipeline → Prop
  | operation (op : Operation) : Change p (p.apply op)
  | hint {name : String} {value : Value} {p' : Pipeline} (accepted : p.setHint name value = .ok p') :
    Change p p'

/-- What any number of changes make of a pipeline. -/
abbrev Becomes : Pipeline → Pipeline → Prop := Relation.ReflTransGen Change

/-- What changes make of all instances of an entity type. -/
def Reachable (p : Pipeline) : Prop :=
  ∃ (provider : Provider) (entity : String), Becomes (provider.all entity) p

/-- The effects that a change can have. -/
inductive Effect (p : Pipeline) : Pipeline → Prop
  | none (failed : p.failure.isSome) : Effect p p
  | fails (e : QueryError) (good : p.failure = .none) : Effect p (p.fail e)
  | merges (model : QueryModel) (good : p.failure = .none) (merging : p.steps = []) :
    Effect p { p with model }
  /-- The first step on the client. -/
  | fallsBack (step : Step) (e : CompileError) (good : p.failure = .none) (merging : p.steps = [])
    (lenient : p.model.hints.strict = false) :
    Effect p { p.addStep step with fallbacks := p.fallbacks ++ [e] }
  | addsStep (step : Step) (good : p.failure = .none) (running : p.steps ≠ []) :
    Effect p (p.addStep step)
  | hints (hints : Hints) (lenient : p.steps ≠ [] → hints.strict = true → p.model.hints.strict) :
    Effect p { p with model := { p.model with hints } }

variable {p p' : Pipeline}

theorem runsClientSide_iff : p.runsClientSide ↔ p.steps ≠ [] := by
  simp [runsClientSide]

theorem effect_fallBack (e : CompileError) (step : Option Step) (good : p.failure = none)
    (merging : p.steps = []) : Effect p (p.fallBack e step) := by
  cases step with
  | none => exact .fails _ good
  | some step =>
    by_cases strict : p.model.hints.strict = true
    · rw [fallBack, if_pos strict]
      exact .fails _ good
    · rw [fallBack, if_neg strict]
      exact .fallsBack step e good merging (by simpa using strict)

theorem effect_addLambda (clause : Clause) (f : Lambda)
    (merge : QueryForm → Except MergeError QueryModel) (step : ClientFunction → Step) :
    Effect p (p.addLambda clause f merge step) := by
  unfold addLambda
  split
  · next failed => exact .none failed
  next good =>
  have good : p.failure = none := by simpa using good
  split
  · next running =>
    split
    · exact .addsStep _ good (runsClientSide_iff.1 running)
    · exact .fails _ good
  next merging =>
  have merging : p.steps = [] := by simpa [runsClientSide] using merging
  split
  · exact .merges _ good merging
  · exact effect_fallBack _ _ good merging

theorem effect_addPlain (clause : Clause) (merged : Except MergeError QueryModel) (step : Step) :
    Effect p (p.addPlain clause merged step) := by
  unfold addPlain
  split
  · next failed => exact .none failed
  next good =>
  have good : p.failure = none := by simpa using good
  split
  · next running => exact .addsStep _ good (runsClientSide_iff.1 running)
  next merging =>
  have merging : p.steps = [] := by simpa [runsClientSide] using merging
  split
  · exact .merges _ good merging
  · exact effect_fallBack _ _ good merging

theorem effect_apply (op : Operation) : Effect p (p.apply op) := by
  cases op with
  | select f => exact effect_addLambda _ f _ _
  | filter f => exact effect_addLambda _ f _ _
  | join f => exact effect_addLambda _ f _ _
  | sort f direction => exact effect_addLambda _ f _ _
  | distinct => exact effect_addPlain _ _ _
  | skip n => exact effect_addPlain .window (.ok (p.model.skip n)) (.skip n)
  | limit n => exact effect_addPlain .window (.ok (p.model.limit n)) (.limit n)

/-- A hint that is set to strict was so named and so valued. -/
theorem strict_of_set {hints hints' : Hints} {name : String} {value : Value}
    (accepted : hints.set name value = .ok hints') (strict : hints'.strict = true) :
    hints.strict = true ∨ (name = Hints.strictName ∧ value.asBool? = some true) := by
  unfold Hints.set at accepted
  split at accepted
  · split at accepted
    · obtain rfl := Except.ok.inj accepted
      exact .inl strict
    · cases accepted
  split at accepted
  · next named =>
    split at accepted
    · next b hb =>
      obtain rfl := Except.ok.inj accepted
      exact .inr ⟨named, hb.trans (congrArg some strict)⟩
    · cases accepted
  · cases accepted

/-- A hint that is accepted changes the hints, and does not make strict what runs on the client. -/
theorem setHint_eq {name : String} {value : Value} (accepted : p.setHint name value = .ok p') :
    ∃ hints, p.model.hints.set name value = .ok hints ∧
      p' = { p with model := { p.model with hints } } ∧
      ¬(name = Hints.strictName ∧ value.asBool? = some true ∧ p.runsClientSide) := by
  unfold setHint at accepted
  split at accepted
  · cases accepted
  · next allowed =>
    cases set : p.model.hints.set name value with
    | error e => simp [QueryModel.withHint, set, Except.map] at accepted
    | ok hints =>
      simp only [QueryModel.withHint, set, Except.map, Except.ok.injEq] at accepted
      exact ⟨hints, rfl, accepted.symm, allowed⟩

theorem effect_setHint {name : String} {value : Value} (accepted : p.setHint name value = .ok p') :
    Effect p p' := by
  obtain ⟨hints, set, rfl, allowed⟩ := setHint_eq accepted
  refine .hints hints fun running strict => (strict_of_set set strict).resolve_right ?_
  rintro ⟨named, valued⟩
  exact allowed ⟨named, valued, runsClientSide_iff.2 running⟩

theorem Change.effect (h : Change p p') : Effect p p' := by
  cases h with
  | operation op => exact effect_apply op
  | hint accepted => exact effect_setHint accepted

/-! ### What every change keeps -/

/-- What runs on the client is allowed to, and its first step has its reason. -/
structure Orderly (p : Pipeline) : Prop where
  lenient : p.runsClientSide → p.model.hints.strict = false
  reasons : p.fallbacks.length = if p.runsClientSide then 1 else 0

theorem orderly_all (provider : Provider) (entity : String) : Orderly (provider.all entity) := by
  unfold Provider.all
  split
  · exact ⟨nofun, rfl⟩
  · exact ⟨nofun, rfl⟩

theorem Orderly.effect (h : Orderly p) (effect : Effect p p') : Orderly p' := by
  have idle (merging : p.steps = []) : p.runsClientSide = false := by
    simp [runsClientSide, merging]
  cases effect with
  | none => exact h
  | fails e good => exact ⟨h.lenient, h.reasons⟩
  | merges model good merging =>
    exact ⟨fun running => absurd merging (runsClientSide_iff.1 running), h.reasons⟩
  | fallsBack step e good merging lenient =>
    refine ⟨fun _ => lenient, ?_⟩
    have none : p.fallbacks.length = 0 := by
      rw [h.reasons, idle merging]
      rfl
    simp [addStep, runsClientSide, none]
  | addsStep step good running =>
    have before : p.runsClientSide := runsClientSide_iff.2 running
    refine ⟨fun _ => h.lenient before, ?_⟩
    have one := h.reasons
    rw [before] at one
    simpa [addStep, runsClientSide] using one
  | hints hints lenient =>
    refine ⟨fun running => ?_, h.reasons⟩
    cases strict : hints.strict with
    | false => rfl
    | true =>
      have before := lenient (runsClientSide_iff.1 running) strict
      rw [h.lenient running] at before
      cases before

theorem Becomes.orderly (h : Becomes p p') (before : Orderly p) : Orderly p' := by
  induction h with
  | refl => exact before
  | tail _ change ih => exact ih.effect change.effect

/-- Besides hints, changes of what runs on the client do nothing but add steps behind. -/
def Extends (p p' : Pipeline) : Prop :=
  p'.model = { p.model with hints := p'.model.hints } ∧ p.steps <+: p'.steps

theorem Extends.refl (p : Pipeline) : Extends p p := ⟨rfl, List.prefix_refl _⟩

theorem Extends.trans {p'' : Pipeline} (h : Extends p p') (h' : Extends p' p'') :
    Extends p p'' := by
  refine ⟨?_, h.2.trans h'.2⟩
  rw [h'.1, h.1]

theorem Effect.extends (effect : Effect p p') (running : p.runsClientSide) : Extends p p' := by
  have running := runsClientSide_iff.1 running
  cases effect with
  | none | fails => exact .refl p
  | merges _ _ merging | fallsBack _ _ _ merging => exact absurd merging running
  | addsStep => exact ⟨rfl, List.prefix_append _ _⟩
  | hints => exact ⟨rfl, List.prefix_refl _⟩

theorem Extends.runsClientSide (h : Extends p p') (running : p.runsClientSide) :
    p'.runsClientSide := by
  rw [runsClientSide_iff] at running ⊢
  exact fun none => running (List.prefix_nil.1 (none ▸ h.2))

theorem Becomes.extends (h : Becomes p p') (running : p.runsClientSide) : Extends p p' := by
  induction h with
  | refl => exact .refl p
  | tail _ change ih => exact ih.trans (change.effect.extends (ih.runsClientSide running))

/-- Besides hints, changes of what has failed do nothing. -/
def SameButHints (p p' : Pipeline) : Prop :=
  p' = { p with model := { p.model with hints := p'.model.hints } }

theorem Effect.sameButHints (effect : Effect p p') (failed : p.failure ≠ .none) :
    SameButHints p p' := by
  cases effect with
  | none | hints => rfl
  | fails _ good | merges _ good | fallsBack _ _ good | addsStep _ good => exact absurd good failed

theorem Becomes.sameButHints (h : Becomes p p') (failed : p.failure ≠ none) :
    SameButHints p p' := by
  induction h with
  | refl => rfl
  | @tail q q' _ change ih =>
    have still : q.failure ≠ none := by rwa [ih]
    have last := change.effect.sameButHints still
    unfold SameButHints at *
    rw [last, ih]

/-! ### Terminal operations -/

/-- All that a pipeline can be asked for, with what it answers. Some elements are pulled and the
rest is left where they are. -/
inductive Terminal : Type → Type 1
  | compile : Terminal CompiledQuery
  | text : Terminal String
  | toList : Terminal (List Value)
  | collectAs {α : Type} (read : Reader α) : Terminal (List α)
  | onlyValue : Terminal Value
  | count : Terminal Int64
  | aggregate (kind : Aggregate) (f : Lambda) : Terminal Value
  | pulls (n : Nat) : Terminal (List (Option (Except QueryError Value)))

end EntityQuery.Pipeline

namespace EntityQuery

variable {σ α : Type}

def Feed.pulls [Libraries] (engine : Engine σ) :
    Nat → Feed → StateM (Session σ) (List (Option (Except QueryError Value)) × Feed)
  | 0, feed => return ([], feed)
  | n + 1, feed => do
    let (item, feed) ← feed.next engine
    let (items, feed) ← pulls engine n feed
    return (item :: items, feed)

namespace Pipeline

def Terminal.run [Libraries] (p : Pipeline) (executor : Executor σ) :
    Terminal α → StateM (Session σ) (Except QueryError α)
  | compile => return p.compile
  | text => return p.text
  | toList => p.toList executor
  | collectAs read => p.collectAs executor read
  | onlyValue => p.onlyValue executor
  | count => p.count executor
  | aggregate kind f => p.aggregate executor kind (some f)
  | pulls n => do
    match ← p.feed executor with
    | .error e => return .error e
    | .ok feed =>
      let (items, feed) ← feed.pulls (p.engine executor) n
      let _ ← feed.close (p.engine executor)
      return .ok items

variable {p : Pipeline} {e : QueryError}

/-- What has failed answers with its failure and leaves the executor alone. -/
theorem Terminal.run_of_failure [Libraries] (failed : p.failure = some e) (t : Terminal α)
    (executor : Executor σ) (session : Session σ) :
    t.run p executor session = (.error e, session) := by
  have compiled : p.compile = .error e := by rw [Pipeline.compile, failed]
  have opened : p.feed executor session = (.error e, session) := by
    rw [Pipeline.feed, compiled]
    rfl
  have collected {β : Type} (read : Reader β) :
      p.collectAs executor read session = (.error e, session) := by
    rw [Pipeline.collectAs]
    simp only [bind, StateT.bind, opened]
    rfl
  have listed : p.toList executor session = (.error e, session) := collected Reader.value
  have folded (kind : Aggregate) (f : Option Lambda) :
      p.aggregate executor kind f session = (.error e, session) := by
    rw [Pipeline.aggregate, failed]
    rfl
  cases t with
  | compile => exact congrArg (·, session) compiled
  | text =>
    rw [run, Pipeline.text, compiled]
    rfl
  | toList => exact listed
  | collectAs read => exact collected read
  | onlyValue =>
    rw [run, Pipeline.onlyValue]
    simp only [bind, StateT.bind, listed]
    rfl
  | count =>
    rw [run, Pipeline.count]
    simp only [bind, StateT.bind, folded]
    rfl
  | aggregate kind f => exact folded kind (some f)
  | pulls n =>
    rw [run]
    simp only [bind, StateT.bind, opened]
    rfl

/-- However a pipeline was built: what runs on the client is not strict and has one reason to; from
then on changes add steps and leave the query as it is, hints apart. Once failed it stays as it is,
hints apart, and answers everything with that failure. -/
theorem lifecycle [Libraries] (h : Reachable p) :
    (p.runsClientSide → p.model.hints.strict = false) ∧
    (p.fallbacks.length = if p.runsClientSide then 1 else 0) ∧
    (p.runsClientSide → ∀ p', Becomes p p' →
      p'.model = { p.model with hints := p'.model.hints } ∧ p.steps <+: p'.steps) ∧
    (∀ e, p.failure = some e → ∀ p', Becomes p p' →
      p' = { p with model := { p.model with hints := p'.model.hints } } ∧
      ∀ {σ α : Type} (t : Terminal α) (executor : Executor σ) (session : Session σ),
        t.run p' executor session = (.error e, session)) := by
  obtain ⟨provider, entity, built⟩ := h
  have orderly := built.orderly (orderly_all provider entity)
  refine ⟨orderly.lenient, orderly.reasons, fun running p' later => later.extends running, ?_⟩
  intro e failed p' later
  have same : SameButHints p p' := later.sameButHints (by simp [failed])
  refine ⟨same, fun t executor session => t.run_of_failure ?_ executor session⟩
  rw [same]
  exact failed

/-- All customers, selected by a function of which nothing is known and then filtered by a lambda
that is none. -/
def misfiltered : Pipeline :=
  ((Provider.all { metamodel := debtors, hints := { strict := false } } "Customer").select
    (.sealed .ok)).filter (.traced 1 [] .foreign)

open Libraries.Plain in
theorem lifecycle_misfiltered :
    Reachable misfiltered ∧ misfiltered.runsClientSide ∧
      misfiltered.failure = some (notExtracted .filter .foreignHandle) ∧
      misfiltered.model.hints.strict = false ∧ misfiltered.fallbacks.length = 1 ∧
      ∀ p', Becomes misfiltered p' → p'.steps = [.map (.sealed .ok)] ∧
        ∀ {σ : Type} (executor : Executor σ) (session : Session σ),
          Terminal.toList.run p' executor session =
            (.error (notExtracted .filter .foreignHandle), session) := by
  have reached : Reachable misfiltered :=
    ⟨_, _, .tail (.tail .refl (.operation (.select (.sealed .ok))))
      (.operation (.filter (.traced 1 [] .foreign)))⟩
  obtain ⟨lenient, reasons, -, failed⟩ := lifecycle reached
  refine ⟨reached, rfl, rfl, lenient rfl, reasons, fun p' later => ?_⟩
  obtain ⟨same, answers⟩ := failed _ rfl p' later
  exact ⟨congrArg steps same, fun executor session => answers .toList executor session⟩

end Pipeline
end EntityQuery
