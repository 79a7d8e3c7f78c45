import EntityQuery.Proofs.Pipeline.Lifecycle

/-! What becomes of the model of a pipeline. Operations change it by merging and by nothing else, so
what holds of all instances of an entity type, is kept by each merged clause and does not depend on
hints holds of the model of every pipeline that is built over the metamodel. -/
namespace EntityQuery.Pipeline

variable {p p' : Pipeline}

/-- The models that a clause can merge to. -/
inductive Merges (p : Pipeline) : QueryModel → Prop
  | select {f : Lambda} {e : Expr} {m : QueryModel} (form : p.queryForm .select f = .ok (.expr e))
    (merged : p.model.select e = .ok m) : Merges p m
  | filter {f : Lambda} {e : Expr} {m : QueryModel} (form : p.queryForm .filter f = .ok (.expr e))
    (merged : p.model.filter e = .ok m) : Merges p m
  | join {f : Lambda} {source : Source} {m : QueryModel}
    (form : p.queryForm .join f = .ok (.join source)) (merged : p.model.join source = .ok m) :
    Merges p m
  | sort {f : Lambda} {e : Expr} {direction : Direction} {m : QueryModel}
    (form : p.queryForm .sort f = .ok (.expr e)) (merged : p.model.sort e direction = .ok m) :
    Merges p m
  | distinct {m : QueryModel} (merged : p.model.dedupe = .ok m) : Merges p m
  | skip (n : UInt64) : Merges p (p.model.skip n)
  | limit (n : UInt64) : Merges p (p.model.limit n)

/-- The element is what was selected, it is paired with a source that was joined, or it stays. -/
theorem Merges.element {m : QueryModel} (merges : p.Merges m) :
    (∃ f e, p.queryForm .select f = .ok (.expr e) ∧ p.model.select e = .ok m ∧ m.element = e) ∨
      (∃ id entity, m.element = .tupleOf [p.model.element, .source id entity]) ∨
      m.element = p.model.element := by
  cases merges with
  | select form merged =>
    have selected := merged
    obtain ⟨-, rfl⟩ := QueryModel.select_eq merged
    exact .inl ⟨_, _, form, selected, rfl⟩
  | join form merged =>
    obtain ⟨-, -, -, rfl⟩ := QueryModel.join_eq merged
    exact .inr (.inl ⟨_, _, rfl⟩)
  | filter form merged =>
    obtain ⟨-, rfl⟩ := QueryModel.filter_eq merged
    exact .inr (.inr rfl)
  | sort form merged =>
    obtain ⟨-, rfl⟩ := QueryModel.sort_eq merged
    exact .inr (.inr rfl)
  | distinct merged =>
    obtain ⟨-, rfl⟩ := QueryModel.dedupe_eq merged
    exact .inr (.inr rfl)
  | skip n => exact .inr (.inr rfl)
  | limit n => exact .inr (.inr rfl)

/-- Metamodel and dialect stay, and the model stays or is a merged one. -/
structure Continues (p p' : Pipeline) : Prop where
  metamodel : p'.metamodel = p.metamodel
  dialect : p'.dialect = p.dialect
  model : p'.model = p.model ∨ p.Merged ∧ p.Merges p'.model

theorem continues_fallBack (e : CompileError) (step : Option Step) :
    Continues p (p.fallBack e step) := by
  unfold fallBack
  split
  · split <;> exact ⟨rfl, rfl, .inl rfl⟩
  · exact ⟨rfl, rfl, .inl rfl⟩

theorem continues_addLambda {clause : Clause} {f : Lambda}
    {merge : QueryForm → Except MergeError QueryModel} {step : ClientFunction → Step}
    (merges : ∀ form m, p.queryForm clause f = .ok form → merge form = .ok m → p.Merges m) :
    Continues p (p.addLambda clause f merge step) := by
  unfold addLambda
  split
  · exact ⟨rfl, rfl, .inl rfl⟩
  next good =>
  split
  · split <;> exact ⟨rfl, rfl, .inl rfl⟩
  next merging =>
  split
  · next model merged =>
    obtain ⟨form, hform, hmodel⟩ := bind_ok_iff.1 merged
    have plain : p.Merged := ⟨by simpa [runsClientSide] using merging, by simpa using good⟩
    exact ⟨rfl, rfl, .inr ⟨plain, merges form model hform (mapError_ok_iff.1 hmodel)⟩⟩
  · exact continues_fallBack _ _

theorem continues_addPlain {clause : Clause} {merged : Except MergeError QueryModel} {step : Step}
    (merges : ∀ m, merged = .ok m → p.Merges m) : Continues p (p.addPlain clause merged step) := by
  unfold addPlain
  split
  · exact ⟨rfl, rfl, .inl rfl⟩
  next good =>
  split
  · exact ⟨rfl, rfl, .inl rfl⟩
  next merging =>
  split
  · have plain : p.Merged := ⟨by simpa [runsClientSide] using merging, by simpa using good⟩
    exact ⟨rfl, rfl, .inr ⟨plain, merges _ rfl⟩⟩
  · exact continues_fallBack _ _

theorem continues_apply (op : Operation) : Continues p (p.apply op) := by
  cases op with
  | select f =>
    refine continues_addLambda fun form m hform hmodel => ?_
    obtain ⟨e, he, merged⟩ := bind_ok_iff.1 hmodel
    obtain rfl := expression_ok he
    exact .select hform merged
  | filter f =>
    refine continues_addLambda fun form m hform hmodel => ?_
    obtain ⟨e, he, merged⟩ := bind_ok_iff.1 hmodel
    obtain rfl := expression_ok he
    exact .filter hform merged
  | join f =>
    refine continues_addLambda fun form m hform hmodel => ?_
    obtain ⟨found, hfound, merged⟩ := bind_ok_iff.1 hmodel
    obtain rfl := source_ok hfound
    exact .join hform merged
  | sort f direction =>
    refine continues_addLambda fun form m hform hmodel => ?_
    obtain ⟨e, he, merged⟩ := bind_ok_iff.1 hmodel
    obtain rfl := expression_ok he
    exact .sort hform merged
  | distinct => exact continues_addPlain fun m merged => .distinct merged
  | skip n =>
    change Continues p (p.addPlain .window (.ok (p.model.skip n)) (.skip n))
    refine continues_addPlain fun m merged => ?_
    obtain rfl := Except.ok.inj merged
    exact .skip n
  | limit n =>
    change Continues p (p.addPlain .window (.ok (p.model.limit n)) (.limit n))
    refine continues_addPlain fun m merged => ?_
    obtain rfl := Except.ok.inj merged
    exact .limit n

/-- What a change makes of the model: other hints, or what a clause merges to. -/
theorem Change.model_eq (change : Change p p') :
    (∃ hints, p'.model = { p.model with hints }) ∨ p.Merged ∧ p.Merges p'.model := by
  cases change with
  | operation op => exact (continues_apply op).model.imp_left fun same => ⟨p.model.hints, same⟩
  | hint accepted =>
    obtain ⟨hints, -, rfl, -⟩ := setHint_eq accepted
    exact .inl ⟨hints, rfl⟩

theorem Change.surroundings (change : Change p p') :
    p'.metamodel = p.metamodel ∧ p'.dialect = p.dialect := by
  cases change with
  | operation op => exact ⟨(continues_apply op).metamodel, (continues_apply op).dialect⟩
  | hint accepted =>
    obtain ⟨hints, -, rfl, -⟩ := setHint_eq accepted
    exact ⟨rfl, rfl⟩

theorem Becomes.surroundings (h : Becomes p p') :
    p'.metamodel = p.metamodel ∧ p'.dialect = p.dialect := by
  induction h with
  | refl => exact ⟨rfl, rfl⟩
  | tail _ change ih => exact ⟨change.surroundings.1.trans ih.1, change.surroundings.2.trans ih.2⟩

/-- Failures are not taken back. -/
theorem Becomes.failure (h : Becomes p p') (good : p'.failure = none) : p.failure = none := by
  by_contra failed
  have same : SameButHints p p' := h.sameButHints failed
  rw [same] at good
  exact failed good

/-- An invariant of models over one metamodel: hints do not matter to it and merging keeps it. -/
theorem Becomes.model {I : QueryModel → Prop} (h : Becomes p p') (start : I p.model)
    (hints : ∀ m hints, I m → I { m with hints })
    (merges : ∀ (q : Pipeline) m, q.metamodel = p.metamodel → I q.model → q.Merges m → I m) :
    I p'.model := by
  induction h with
  | refl => exact start
  | @tail q q' built change ih =>
    rcases change.model_eq with ⟨other, same⟩ | ⟨-, merged⟩
    · rw [same]
      exact hints _ other ih
    · exact merges q _ (Becomes.surroundings built).1 ih merged

end EntityQuery.Pipeline
