import EntityQuery.Proofs.Lambda.Demand

/-! What an evaluation does from one moment to another. It keeps the values known, and what it
computes and calls is needed by what it was asked for and was not known before. -/
namespace EntityQuery.Evaluation

variable {τ α β : Type} {t : Trace}

/-- What lies between two moments of an evaluation that computes only operations of `S`. -/
structure Advances (S : Nat → Prop) (p p' : Progress (τ × List Call)) : Prop where
  keeps : Retains (Memo.value? p.memo) (Memo.value? p'.memo)
  memo : ∀ id, (Memo.value? p'.memo id).isSome → (Memo.value? p.memo id).isSome ∨ S id
  log : ∃ new, p'.source.2 = p.source.2 ++ new ∧
    ∀ c ∈ new, S c.id ∧ Memo.value? p.memo c.id = none

namespace Advances

variable {S S' : Nat → Prop} {p p' p'' : Progress (τ × List Call)}

theorem refl (p : Progress (τ × List Call)) : Advances S p p :=
  ⟨fun _ _ known => known, fun _ => .inl, [], (List.append_nil _).symm, nofun⟩

theorem trans (first : Advances S p p') (next : Advances S p' p'') : Advances S p p'' := by
  obtain ⟨new, logged, fresh⟩ := first.log
  obtain ⟨new', logged', fresh'⟩ := next.log
  refine ⟨fun id v known => next.keeps id v (first.keeps id v known), fun id known => ?_,
    new ++ new', by rw [logged', logged, List.append_assoc], List.forall_mem_append.2 ⟨fresh, ?_⟩⟩
  · exact (next.memo id known).elim (first.memo id) .inr
  · intro c hc
    refine ⟨(fresh' c hc).1, Option.eq_none_iff_forall_ne_some.2 fun v known => ?_⟩
    cases (fresh' c hc).2.symm.trans (first.keeps _ _ known)

theorem mono (h : Advances S p p') (wider : ∀ id, S id → S' id) : Advances S' p p' := by
  obtain ⟨new, logged, fresh⟩ := h.log
  exact ⟨h.keeps, fun id known => (h.memo id known).imp_right (wider id), new, logged,
    fun c hc => ⟨wider _ (fresh c hc).1, (fresh c hc).2⟩⟩

end Advances

/-- An evaluation computes only operations of `S`, and comes to an end that is in order. -/
def Settles (t : Trace) (S : Nat → Prop) (x : Evaluation (τ × List Call) α)
    (p : Progress (τ × List Call)) (Q : α → Memo → Prop) : Prop :=
  Advances S p (x.run p).2 ∧
    match (x.run p).1 with
    | .ok a => Sound t (x.run p).2.memo (x.run p).2.source.2 ∧ Q a (x.run p).2.memo
    | .error e => Stopped t e (x.run p).2.memo (x.run p).2.source.2

section Settles

variable {S S' : Nat → Prop} {x : Evaluation (τ × List Call) α}
  {f : α → Evaluation (τ × List Call) β} {p : Progress (τ × List Call)} {Q : α → Memo → Prop}
  {R : β → Memo → Prop}

theorem Settles.mono (h : Settles t S x p Q) (wider : ∀ id, S id → S' id) : Settles t S' x p Q :=
  ⟨h.1.mono wider, h.2⟩

theorem Settles.bind_of (first : Settles t S x p Q) (wider : ∀ id, S id → S' id)
    (next : ∀ a p', Advances S p p' → Sound t p'.memo p'.source.2 → Q a p'.memo →
      Settles t S' (f a) p' R) : Settles t S' (x >>= f) p R := by
  obtain ⟨advances, ends⟩ := first
  rcases run : x.run p with ⟨r, p'⟩
  rw [run] at advances ends
  cases r with
  | ok a =>
    have later := next a p' advances ends.1 ends.2
    rw [Settles, run_bind_ok run]
    exact ⟨(advances.mono wider).trans later.1, later.2⟩
  | error e =>
    rw [Settles, run_bind_error run]
    exact ⟨advances.mono wider, ends⟩

theorem Settles.bind (first : Settles t S x p Q)
    (next : ∀ a p', Advances S p p' → Sound t p'.memo p'.source.2 → Q a p'.memo →
      Settles t S (f a) p' R) : Settles t S (x >>= f) p R :=
  first.bind_of (fun _ h => h) next

/-- What an evaluation finds may be stated with what is known in the end. -/
theorem Settles.imp {Q' : α → Memo → Prop} (h : Settles t S x p Q)
    (weaker : ∀ a p', Advances S p p' → Q a p'.memo → Q' a p'.memo) : Settles t S x p Q' := by
  obtain ⟨advances, ends⟩ := h
  refine ⟨advances, ?_⟩
  rcases run : x.run p with ⟨r, p'⟩
  rw [run] at advances ends
  cases r with
  | ok a => exact ⟨ends.1, weaker a p' advances ends.2⟩
  | error e => exact ends

section Sound

variable (sound : Sound t p.memo p.source.2)
include sound

theorem settles_pure {a : α} (h : Q a p.memo) : Settles t S (pure a) p Q :=
  ⟨.refl p, sound, h⟩

theorem settles_throw (e : EvalError) : Settles t S (throw e) p Q := ⟨.refl p, .quiet sound⟩

theorem settles_lift {r : Except EvalError α} (h : ∀ a, r = .ok a → Q a p.memo) :
    Settles t S (liftM r) p Q := by
  cases r with
  | ok a => exact settles_pure sound (h a rfl)
  | error e => exact settles_throw sound e

/-- Streaming entities computes no other operation. -/
theorem settles_entities {source : EntitySource τ} {entity : String} {Q : Value → Memo → Prop}
    (h : ∀ v, Q v p.memo) : Settles t S (entities (beside source) entity) p Q := by
  rw [Settles, run_entities, beside]
  dsimp only
  refine ⟨⟨fun _ _ known => known, fun _ => .inl, [], (List.append_nil _).symm,
    List.forall_mem_nil _⟩, ?_⟩
  cases (source entity p.source.1).1 with
  | ok vs => exact ⟨sound, h _⟩
  | error e => exact .quiet sound

end Sound

/-- Values computed one after another, each with what is known then, are all known in the end. -/
theorem settles_mapM {value : Nat → Evaluation (τ × List Call) Value} {items : List Nat}
    (inputs : ∀ i ∈ items, ∀ p', Advances S p p' → Sound t p'.memo p'.source.2 →
      Settles t S (value i) p' fun v memo => memo.value? i = some v)
    (sound : Sound t p.memo p.source.2) :
    Settles t S (items.mapM value) p fun vs memo => items.map memo.value? = vs.map some := by
  induction items generalizing p with
  | nil => exact settles_pure sound rfl
  | cons i items ih =>
    rw [List.mapM_cons]
    refine (inputs i List.mem_cons_self p (.refl p) sound).bind fun v p' advances sound known => ?_
    have rest := ih (fun j hj p'' later =>
      inputs j (List.mem_cons_of_mem _ hj) p'' (advances.trans later)) sound
    refine rest.bind fun vs p'' later sound values => settles_pure sound ?_
    rw [List.map_cons, List.map_cons, values, later.keeps _ _ known]

/-- From a moment on, whatever an operation takes is found when it is asked for. -/
def Provides (t : Trace) (S : Nat → Prop) (value : Nat → Evaluation (τ × List Call) Value) (op : Op)
    (p : Progress (τ × List Call)) : Prop :=
  ∀ i p', Advances S p p' → Sound t p'.memo p'.source.2 → op.Takes (Memo.value? p'.memo) i →
    Settles t S (value i) p' fun v memo => memo.value? i = some v

/-- All that the operation takes is known. -/
def Taken (op : Op) (memo : Memo) : Prop := ∀ i, op.Takes memo.value? i → (memo.value? i).isSome

theorem isSome_of_known {base i : Nat} {v : Value} {memo : Memo}
    (known : memo.value? base = some v) (hi : i ∈ [base]) : (memo.value? i).isSome := by
  rw [List.mem_singleton.1 hi, known]
  rfl

section Computed

variable {value : Nat → Evaluation (τ × List Call) Value} {source : EntitySource τ}
  {arguments : List Value}

/-- The right operand is asked for only if the left one does not settle the result. -/
theorem settles_binary {op : BinaryOp} {left right : Nat}
    (provides : Provides t S value (.binary op left right) p)
    (sound : Sound t p.memo p.source.2) :
    Settles t S (compute (beside source) arguments value (.binary op left right)) p
      fun _ => Taken (.binary op left right) := by
  refine (provides left p (.refl p) sound (.inl rfl)).bind fun v p' advances sound known => ?_
  have settled (h : op.SettledBy v) : Taken (.binary op left right) p'.memo := by
    intro i takes
    obtain rfl | ⟨rfl, w, known', open'⟩ := takes
    · exact isSome_of_known known (List.mem_singleton.2 rfl)
    · exact absurd (Option.some.inj (known.symm.trans known') ▸ h) open'
  split
  · exact settles_pure sound (settled rfl)
  · exact settles_pure sound (settled rfl)
  · next notFalse notTrue =>
    have unsettled : ¬op.SettledBy v := by
      intro h
      cases op with
      | and => exact notFalse rfl h
      | or => exact notTrue rfl h
      | _ => exact h
    have second := provides right p' advances sound (.inr ⟨rfl, v, known, unsettled⟩)
    refine second.bind fun w p'' later sound known' => settles_lift sound fun _ _ i takes => ?_
    obtain rfl | ⟨rfl, -⟩ := takes
    · exact isSome_of_known (later.keeps _ _ known) (List.mem_singleton.2 rfl)
    · exact isSome_of_known known' (List.mem_singleton.2 rfl)

/-- Of the arms one is asked for, as the condition says. -/
theorem settles_branch {condition whenTrue whenFalse : Nat}
    (provides : Provides t S value (.branch condition whenTrue whenFalse) p)
    (sound : Sound t p.memo p.source.2) :
    Settles t S (compute (beside source) arguments value (.branch condition whenTrue whenFalse)) p
      fun _ => Taken (.branch condition whenTrue whenFalse) := by
  refine (provides condition p (.refl p) sound (.inl rfl)).bind
    fun v p' advances sound known => ?_
  split
  · refine (provides whenTrue p' advances sound (.inr (.inl ⟨rfl, known⟩))).imp
      fun w p'' later known' i takes => ?_
    have known := later.keeps _ _ known
    obtain rfl | ⟨rfl, -⟩ | ⟨-, other⟩ := takes
    · exact isSome_of_known known (List.mem_singleton.2 rfl)
    · exact isSome_of_known known' (List.mem_singleton.2 rfl)
    · cases known.symm.trans other
  · refine (provides whenFalse p' advances sound (.inr (.inr ⟨rfl, known⟩))).imp
      fun w p'' later known' i takes => ?_
    have known := later.keeps _ _ known
    obtain rfl | ⟨-, other⟩ | ⟨rfl, -⟩ := takes
    · exact isSome_of_known known (List.mem_singleton.2 rfl)
    · cases known.symm.trans other
    · exact isSome_of_known known' (List.mem_singleton.2 rfl)
  · exact settles_throw sound _

/-- A value is computed from what is known then, after a step that goes before. -/
theorem settles_compute {id : Nat} {op : Op} (recorded : t.ops[id]? = some op)
    (internal : op.external? = none)
    (inputs : ∀ i ∈ op.inputs, ∀ p', Sound t p'.memo p'.source.2 →
      t.Demanded (Memo.value? p'.memo) i →
      Settles t S (value i) p' fun v memo => memo.value? i = some v)
    (sound : Sound t p.memo p.source.2) (demanded : t.Demanded (Memo.value? p.memo) id) :
    Settles t S (compute (beside source) arguments value op) p fun _ => Taken op := by
  have provides : Provides t S value op p := fun i p' advances sound takes =>
    inputs i takes.inputs p' sound (.operand (demanded.keep advances.keeps) recorded takes)
  cases op with
  | param index =>
    rw [compute]
    split
    · exact settles_pure sound (List.forall_mem_nil _)
    · exact settles_throw sound _
  | const v | capture name v => exact settles_pure sound (List.forall_mem_nil _)
  | field base name | unary name base =>
    refine (provides base p (.refl p) sound (List.mem_singleton.2 rfl)).bind
      fun v p' _ sound known => ?_
    exact settles_lift sound fun _ _ _ => isSome_of_known known
  | binary op left right => exact settles_binary provides sound
  | branch condition whenTrue whenFalse => exact settles_branch provides sound
  | tuple items =>
    refine (settles_mapM (fun i hi p' advances sound => provides i p' advances sound hi)
      sound).bind fun vs p' _ sound values => settles_pure sound fun i hi =>
        isSome_of_values values hi
  | element base index =>
    refine (provides base p (.refl p) sound (List.mem_singleton.2 rfl)).bind
      fun v p' _ sound known => ?_
    split
    · split
      · exact settles_pure sound fun _ => isSome_of_known known
      · exact settles_throw sound _
    · exact settles_throw sound _
  | call callee items =>
    refine (settles_mapM (fun i hi p' advances sound => provides i p' advances sound hi)
      sound).bind fun vs p' _ sound values => ?_
    split
    · exact settles_lift sound fun _ _ i hi => isSome_of_values values hi
    · exact settles_throw sound _
    · cases internal
  | streamFrom collection =>
    refine (provides collection p (.refl p) sound (List.mem_singleton.2 rfl)).bind
      fun v p' _ sound known => ?_
    split
    · exact settles_pure sound fun _ => isSome_of_known known
    · exact settles_pure sound fun _ => isSome_of_known known
    · exact settles_throw sound _
  | streamEntity provider entity => exact settles_entities sound fun _ _ h => h.elim

end Computed

/-- What is remembered is known. -/
theorem value?_remember {id : Nat} {v : Value} {memo : Memo} :
    Memo.value? ((id, v) :: memo) id = some v := by
  rw [Memo.value?, List.lookup_cons, beq_self_eq_true]

theorem settles_remember {id : Nat} {v : Value} (first : Memo.value? p.memo id = none)
    (sound : Sound t ((id, v) :: p.memo) p.source.2) :
    Settles t (t.Needs id) (do
      modify fun p => { p with memo := (id, v) :: p.memo }
      return v) p fun v memo => memo.value? id = some v := by
  refine ⟨⟨keeps_remember first, fun i known => ?_, [], (List.append_nil _).symm, nofun⟩, sound,
    value?_remember⟩
  obtain rfl | known := isSome_remember.1 known
  · exact .inr .refl
  · exact .inl known

/-- An answer is remembered; a failure is not. -/
theorem settles_perform {behaviour : Behaviour τ} {id : Nat} {g : ExternalFunction}
    {items : List Nat} {vs : List Value} (recorded : t.ops[id]? = some (.call (.external g) items))
    (values : items.map (Memo.value? p.memo) = vs.map some)
    (sound : Sound t p.memo p.source.2) (demanded : t.Demanded (Memo.value? p.memo) id)
    (first : Memo.value? p.memo id = none) :
    Settles t (t.Needs id) (do
      let v ← perform behaviour id g vs
      modify fun p => { p with memo := (id, v) :: p.memo }
      return v) p fun v memo => memo.value? id = some v := by
  have run := run_perform behaviour id g vs p
  rcases answers : behaviour id g vs p.source.1 with ⟨answer, s⟩
  rw [answers] at run
  dsimp only at run
  have made : Call.Made t (Memo.value? p.memo) ⟨⟨g.name, vs⟩, id, answer⟩ :=
    ⟨g, items, recorded, rfl, values⟩
  have fresh : ∀ c ∈ [Call.mk ⟨g.name, vs⟩ id answer],
      t.Needs id c.id ∧ Memo.value? p.memo c.id = none :=
    List.forall_mem_singleton.2 ⟨.refl, first⟩
  cases answer with
  | ok v =>
    rw [Settles, run_bind_ok run]
    refine ⟨⟨keeps_remember first, fun i known => ?_, _, rfl, fresh⟩,
      sound.answer first rfl rfl made demanded, value?_remember⟩
    obtain rfl | known := isSome_remember.1 known
    · exact .inr .refl
    · exact .inl known
  | error e =>
    rw [Settles, run_bind_error run]
    exact ⟨⟨fun _ _ known => known, fun _ => .inl, _, rfl, fresh⟩,
      .call sound rfl made demanded first⟩

/-- A demanded value is computed from operands, which stand before it, and is not computed again.
The induction is on the fuel. -/
theorem settles_valueObserved (inOrder : t.Scoped) (behaviour : Behaviour τ)
    (source : EntitySource τ) (arguments : List Value) (fuel id : Nat)
    (sound : Sound t p.memo p.source.2) (demanded : t.Demanded (Memo.value? p.memo) id) :
    Settles t (t.Needs id) (valueObserved behaviour source arguments t.ops fuel id) p
      fun v memo => memo.value? id = some v := by
  induction fuel generalizing id p with
  | zero => exact settles_throw sound _
  | succ fuel ih =>
    have got : Settles t (t.Needs id) get p fun q memo => q.memo = memo := ⟨.refl p, sound, rfl⟩
    refine got.bind fun q p advances sound same => ?_
    have demanded := demanded.keep advances.keeps
    rw [same]
    cases found : p.memo.lookup id with
    | some v => exact settles_pure sound found
    | none =>
      cases recorded : t.ops[id]? with
      | none => exact settles_throw sound _
      | some op =>
        -- what is computed for the operands stands before the operation
        let behind (i : Nat) : Prop := ∃ j, t.Reads id j ∧ t.Needs j i
        have wider (i : Nat) : behind i → t.Needs id i := fun ⟨_, reads, needs⟩ => .head reads needs
        have inputs (i : Nat) (hi : i ∈ op.inputs) (p' : Progress (τ × List Call))
            (sound : Sound t p'.memo p'.source.2) (demanded : t.Demanded (Memo.value? p'.memo) i) :
            Settles t behind (valueObserved behaviour source arguments t.ops fuel i) p'
              fun v memo => memo.value? i = some v :=
          (ih i sound demanded).mono fun _ needs => ⟨i, ⟨op, recorded, hi⟩, needs⟩
        have first {p' : Progress (τ × List Call)} (advances : Advances behind p p') :
            Memo.value? p'.memo id = none := by
          by_contra known
          obtain earlier | ⟨j, reads, needs⟩ :=
            advances.memo id (Option.isSome_iff_ne_none.2 known)
          · rw [Memo.value?, found] at earlier
            cases earlier
          · exact Nat.not_le_of_lt (inOrder.lt_of_reads reads) (inOrder.le_of_needs needs)
        cases external : op.external? with
        | some g =>
          obtain ⟨items, rfl⟩ := Op.external?_eq_some external
          have operands : Settles t behind
              (items.mapM (valueObserved behaviour source arguments t.ops fuel)) p
              fun vs memo => items.map memo.value? = vs.map some :=
            settles_mapM (fun i hi p' later sound => inputs i hi p' sound
              (.operand (demanded.keep later.keeps) recorded hi)) sound
          dsimp only
          rw [computeObserved, bind_assoc]
          exact operands.bind_of wider fun vs p' later sound values =>
            settles_perform recorded values sound (demanded.keep later.keeps) (first later)
        | none =>
          dsimp only
          rw [computeObserved_of_internal external]
          refine (settles_compute recorded external inputs sound demanded).bind_of wider
            fun v p' later sound taken => ?_
          exact settles_remember (first later)
            (sound.remember (first later) (demanded.keep later.keeps) recorded external taken)

end Settles

end EntityQuery.Evaluation
