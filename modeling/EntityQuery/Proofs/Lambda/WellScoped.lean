import EntityQuery.Proofs.Lambda.Foreign
import EntityQuery.Proofs.Lambda.Search
import EntityQuery.Proofs.Lambda.Yields
import EntityQuery.Proofs.QueryForm.Meanings

/-! Traces that lambdas leave are well scoped: parameters come first and only there, operations read
earlier ones, and the result is among them. So what goes through a trace, to interpret it, to
evaluate it or to find what is needed, stays inside and comes to an end. -/
namespace EntityQuery
namespace Evaluation

variable {τ : Type} {outside outside' : Nat → Evaluation τ Value} {source : EntitySource τ}
  {arguments : List Value} {ops : List Op}

theorem mapM_congr {value value' : Nat → Evaluation τ Value} {ids : List Nat}
    (same : ∀ id ∈ ids, value id = value' id) : ids.mapM value = ids.mapM value' := by
  induction ids with
  | nil => rfl
  | cons id ids ih =>
    rw [List.mapM_cons, List.mapM_cons, same id List.mem_cons_self,
      ih fun i hi => same i (List.mem_cons_of_mem _ hi)]

/-- An operation asks only for its inputs. -/
theorem compute_congr {value value' : Nat → Evaluation τ Value} {op : Op}
    (same : ∀ i ∈ op.inputs, value i = value' i) :
    compute source arguments value op = compute source arguments value' op := by
  cases op with
  | param _ | const _ | capture _ _ | streamEntity _ _ => rfl
  | field base _ | element base _ | unary _ base | streamFrom base =>
    rw [compute, compute, same base List.mem_cons_self]
  | binary _ left right =>
    have left' := same left List.mem_cons_self
    have right' := same right (List.mem_cons_of_mem _ List.mem_cons_self)
    simp only [compute, left', right']
  | branch condition whenTrue whenFalse =>
    have condition' := same condition List.mem_cons_self
    have whenTrue' := same whenTrue (List.mem_cons_of_mem _ List.mem_cons_self)
    have whenFalse' := same whenFalse (by simp [Op.inputs])
    simp only [compute, condition', whenTrue', whenFalse']
  | tuple items | call _ items =>
    have items' : items.mapM value = items.mapM value' := mapM_congr same
    rw [compute, compute, items']

/-- Computes a value down to a depth. What happens below it, and where no operation stands, is given
by `outside`. -/
def valueOr (outside : Nat → Evaluation τ Value) (source : EntitySource τ) (arguments : List Value)
    (ops : List Op) : Nat → Nat → Evaluation τ Value
  | 0, id => outside id
  | depth + 1, id => do
    match (← get).memo.lookup id with
    | some v => return v
    | none =>
      match ops[id]? with
      | none => outside id
      | some op =>
        let v ← compute source arguments (valueOr outside source arguments ops depth) op
        modify fun p => { p with memo := (id, v) :: p.memo }
        return v

/-- Runs a trace as `ofTrace` does, down to a depth. -/
def ofTraceOr (outside : Nat → Evaluation τ Value) (depth : Nat) (source : EntitySource τ)
    (t : Trace) (arguments : List Value) : Evaluation τ Value := do
  t.independentCalls.forM fun id => discard (valueOr outside source arguments t.ops depth id)
  valueOr outside source arguments t.ops depth t.result

theorem valueOf_eq (depth : Nat) : valueOf source arguments ops depth =
    valueOr (fun id => throw (.unscoped id)) source arguments ops depth := by
  induction depth with
  | zero => rfl
  | succ depth ih =>
    funext id
    rw [valueOf, ih]
    rfl

/-- An operation needs no more depth than operations stand before it, and nothing outside. The
induction is on the depth, which its inputs need less of. -/
theorem valueOr_congr (inOrder : ReadsEarlier ops) {depth depth' id : Nat} (deep : id < depth)
    (deep' : id < depth') (bound : id < ops.length) :
    valueOr outside source arguments ops depth id =
      valueOr outside' source arguments ops depth' id := by
  induction depth generalizing depth' id with
  | zero => cases deep
  | succ depth ih =>
    cases depth' with
    | zero => cases deep'
    | succ depth' =>
      have recorded : ops[id]? = some ops[id] := List.getElem?_eq_getElem bound
      have inputs (i : Nat) (hi : i ∈ ops[id].inputs) :
          valueOr outside source arguments ops depth i =
            valueOr outside' source arguments ops depth' i := by
        have earlier := inOrder id ops[id] recorded i hi
        exact ih (by omega) (by omega) (by omega)
      simp only [valueOr, recorded, compute_congr inputs]

theorem ofTraceOr_eq {t : Trace} (inOrder : t.Scoped) {depth : Nat} (deep : t.ops.length ≤ depth) :
    ofTraceOr outside depth source t arguments = ofTrace source t arguments := by
  have within (id : Nat) (bound : id < t.ops.length) :
      valueOr outside source arguments t.ops depth id =
        valueOf source arguments t.ops t.ops.length id := by
    rw [valueOf_eq]
    exact valueOr_congr inOrder.inputs (Nat.lt_of_lt_of_le bound deep) bound bound
  have independent (ids : List Nat) (bound : ∀ id ∈ ids, id < t.ops.length) :
      (ids.forM fun id => discard (valueOr outside source arguments t.ops depth id)) =
        ids.forM fun id => discard (valueOf source arguments t.ops t.ops.length id) := by
    induction ids with
    | nil => rfl
    | cons id ids ih =>
      rw [List.forM, List.forM, within id (bound id List.mem_cons_self),
        ih fun i hi => bound i (List.mem_cons_of_mem _ hi)]
  rw [ofTraceOr, ofTrace, within _ inOrder.result, independent _ fun id hid => ?_]
  obtain ⟨⟨_, _, recorded⟩, -⟩ := (Trace.mem_independentCalls inOrder).1 hid
  exact (List.getElem?_eq_some_iff.1 recorded).1

end Evaluation

namespace QueryForm

variable {m : Metamodel} {bindings : List Binding} {known : List Meaning} {op : Op}

theorem exprOf_append {i : Nat} (bound : i < known.length) (beyond : List Meaning) :
    meaning.exprOf (known ++ beyond) i = meaning.exprOf known i := by
  rw [meaning.exprOf, meaning.exprOf, meaning.meaningOf, meaning.meaningOf,
    List.getElem?_append_left bound]

/-- The meaning of an operation over those of its inputs does not depend on what follows these. -/
theorem meaning_append (bound : ∀ i ∈ op.inputs, i < known.length) (beyond : List Meaning) :
    meaning m bindings (known ++ beyond) op = meaning m bindings known op := by
  have same (i : Nat) (hi : i ∈ op.inputs) := exprOf_append (bound i hi) beyond
  cases op with
  | param _ | const _ | capture _ _ => rfl
  | field base _ | element base _ | unary _ base | streamFrom base =>
    rw [meaning, meaning, same base List.mem_cons_self]
  | binary _ left right =>
    rw [meaning, meaning, same left (by simp [Op.inputs]), same right (by simp [Op.inputs])]
  | branch condition whenTrue whenFalse =>
    rw [meaning, meaning, same condition (by simp [Op.inputs]),
      same whenTrue (by simp [Op.inputs]), same whenFalse (by simp [Op.inputs])]
  | tuple items => exact congrArg (Meaning.expr ∘ tuple) (List.map_congr_left same)
  | call callee items =>
    cases callee with
    | known fn => exact congrArg (Meaning.expr ∘ apply fn) (List.map_congr_left same)
    | external f => rfl
  | streamEntity provider _ =>
    rw [meaning, meaning, meaning.meaningOf, meaning.meaningOf,
      List.getElem?_append_left (bound provider List.mem_cons_self)]

end QueryForm

namespace Trace

open QueryForm

variable {arity : Nat} {t : Trace}

/-- The parameters stand first and are the only ones, operations read earlier ones, and the result
is an operation of the trace. -/
structure WellScoped (arity : Nat) (t : Trace) : Prop extends t.Scoped where
  arity_eq : t.arity = arity
  parameters : ∀ id index, t.ops[id]? = some (.param index) ↔ id = index ∧ id < arity

/-- What goes through the trace looks at operations of the trace only, and ends. -/
structure Confined (t : Trace) : Prop where
  /-- Interpreted over the meanings before it, an operation reads among these alone. -/
  interpreted : ∀ (m : Metamodel) (bindings : List Binding) (id : Nat) (op : Op),
    t.ops[id]? = some op → ∀ beyond : List Meaning,
      (∀ i ∈ op.inputs, i < (meanings m bindings (t.ops.take id)).length) ∧
        meaning m bindings (meanings m bindings (t.ops.take id) ++ beyond) op =
          meaning m bindings (meanings m bindings (t.ops.take id)) op
  given : ∀ (m : Metamodel) (bindings : List Binding),
    t.result < (meanings m bindings t.ops).length
  /-- An evaluation goes no deeper than there are operations, and never outside. -/
  evaluated : ∀ {τ : Type} (outside : Nat → Evaluation τ Value) (depth : Nat)
    (source : EntitySource τ) (arguments : List Value), t.ops.length ≤ depth →
      Evaluation.ofTraceOr outside depth source t arguments = Evaluation.ofTrace source t arguments
  /-- The search for what the result needs ends with nothing left to look at. -/
  searched : Search.rounds t.ops ((t.ops.flatMap Op.inputs).length + 1) (Search.start t) =
    some ⟨(List.range t.ops.length).map t.isReachable, []⟩

theorem Scoped.confined (inOrder : t.Scoped) : t.Confined where
  interpreted m bindings id op recorded beyond := by
    have bound (i : Nat) (hi : i ∈ op.inputs) :
        i < (meanings m bindings (t.ops.take id)).length := by
      have earlier := inOrder.inputs id op recorded i hi
      rw [length_meanings, List.length_take]
      exact Nat.lt_min.2 ⟨earlier, Nat.lt_trans earlier (List.getElem?_eq_some_iff.1 recorded).1⟩
    exact ⟨bound, meaning_append bound beyond⟩
  given m bindings := (length_meanings m bindings t.ops).symm ▸ inOrder.result
  evaluated _ _ _ _ deep := Evaluation.ofTraceOr_eq inOrder deep
  searched := Search.rounds_start inOrder

end Trace

namespace Lambda

theorem extract_traced (arity : Nat) (preparation : List Term) (body : Term) :
    (traced arity preparation body).extract =
      let recorded := (recordBody arity preparation body).run {}
      if recorded.2.leaked then .error .foreignHandle
      else .ok ⟨arity, recorded.2.ops, recorded.1⟩ := rfl

theorem arity_of_extract {f : Lambda} {t : Trace} (h : f.extract = .ok t) : t.arity = f.arity := by
  cases f with
  | sealed run => cases h
  | traced arity preparation body =>
    rw [extract_traced] at h
    dsimp only at h
    split at h
    · cases h
    · rw [← Except.ok.inj h]
      rfl

theorem wellScoped_of_extract {f : Lambda} {t : Trace} (h : f.extract = .ok t) :
    t.WellScoped f.arity := by
  obtain ⟨new, recorded, ofBody⟩ := ops_of_extract h
  have inOrder := scoped_of_extract h
  refine ⟨inOrder, arity_of_extract h, fun id index => ?_⟩
  have long : ((List.range f.arity).map Op.param).length = f.arity := by simp
  rw [recorded]
  rcases Nat.lt_or_ge id f.arity with parameter | behind
  · rw [List.getElem?_append_left (by rwa [long])]
    simp [parameter]
  · rw [List.getElem?_append_right (by rwa [long])]
    refine iff_of_false (fun found => ?_) fun h => Nat.not_lt.2 behind h.2
    exact (ofBody _ (List.mem_of_getElem? found)).notParam index rfl

/-- An extraction fails exactly if a handle of another one is let in. Otherwise it leaves a trace
that is well scoped, and that nothing that goes through it leaves. -/
theorem extract_wellScoped (arity : Nat) (preparation : List Term) (body : Term) :
    match (traced arity preparation body).extract with
    | .error e => e = .foreignHandle ∧ LetsIn preparation body
    | .ok t => ¬LetsIn preparation body ∧ t.WellScoped arity ∧ t.Confined := by
  have marked := leaked_recordBody arity preparation body
  cases extracted : (traced arity preparation body).extract with
  | error e =>
    rw [extract_traced] at extracted
    dsimp only at extracted
    split at extracted
    · next leaked => exact ⟨(Except.error.inj extracted).symm, marked.1 leaked⟩
    · cases extracted
  | ok t =>
    have wellScoped := wellScoped_of_extract extracted
    refine ⟨fun letsIn => ?_, wellScoped, wellScoped.confined⟩
    rw [extract_traced] at extracted
    dsimp only at extracted
    rw [if_pos (marked.2 letsIn)] at extracted
    cases extracted

/-- What is called on a handle of another extraction is recorded there and lets nothing in. -/
example : (traced 1 [.binary .add .foreign (.param 0)] (.param 0)).extract.map Trace.result =
    .ok 0 := rfl

end Lambda
end EntityQuery
