import EntityQuery.Lambda.Evaluation

/-! What lambdas record: their parameters, and behind these no others. Tuples and calls are recorded
with operands, as a term cannot be written without a first one. -/
namespace EntityQuery

/-- Tuples and calls have operands. -/
def Op.HasOperands : Op → Prop
  | tuple items => items ≠ []
  | call _ arguments => arguments ≠ []
  | _ => True

/-- An operation that a body records is no parameter. -/
structure Op.OfBody (op : Op) : Prop where
  notParam : ∀ index, op ≠ .param index
  hasOperands : op.HasOperands

namespace Recorder

variable {α β : Type} {x : Recorder α} {f : α → Recorder β} {P : Op → Prop}

/-- The operations that the recorder adds satisfy `P`. -/
def Adds (P : Op → Prop) (x : Recorder α) : Prop :=
  ∀ r : Recording, ∃ new, (x.run r).2.ops = r.ops ++ new ∧ ∀ op ∈ new, P op

theorem adds_of_ops_eq (h : ∀ r : Recording, (x.run r).2.ops = r.ops) : Adds P x :=
  fun r => ⟨[], (h r).trans (List.append_nil _).symm, List.forall_mem_nil _⟩

theorem adds_pure (a : α) : Adds P (pure a) := adds_of_ops_eq fun _ => rfl

theorem Adds.bind (first : Adds P x) (next : ∀ a, Adds P (f a)) : Adds P (x >>= f) := by
  intro r
  obtain ⟨new, grown, good⟩ := first r
  obtain ⟨later, grown', good'⟩ := next (x.run r).1 (x.run r).2
  refine ⟨new ++ later, ?_, List.forall_mem_append.2 ⟨good, good'⟩⟩
  rw [← List.append_assoc, ← grown]
  exact grown'

theorem adds_push {op : Op} (h : P op) : Adds P (push op) :=
  fun _ => ⟨[op], rfl, List.forall_mem_singleton.2 h⟩

theorem adds_record {op : Op} (h : P op) : Adds P (record op) :=
  (adds_push h).bind fun id => adds_pure (Operand.handle id)

theorem adds_lift (operand : Operand) : Adds Op.OfBody (lift operand) := by
  cases operand with
  | handle id => exact adds_pure id
  | foreign =>
    have leak : Adds Op.OfBody (modify fun r : Recording => { r with leaked := true }) :=
      adds_of_ops_eq fun _ => rfl
    exact leak.bind fun _ => adds_push ⟨nofun, trivial⟩
  | const value => exact adds_push ⟨nofun, trivial⟩
  | captured name value => exact adds_push ⟨nofun, trivial⟩

theorem adds_onHandle {k : Nat → Recorder Operand} (base : Operand)
    (next : ∀ id, Adds Op.OfBody (k id)) : Adds Op.OfBody (onHandle base k) := by
  have own := (adds_lift base).bind next
  cases base with
  | foreign => exact adds_pure Operand.foreign
  | handle id => exact own
  | const value => exact own
  | captured name value => exact own

theorem adds_mapM_lift (operands : List Operand) : Adds Op.OfBody (operands.mapM lift) := by
  induction operands with
  | nil => exact adds_pure []
  | cons operand operands ih =>
    rw [List.mapM_cons]
    exact (adds_lift operand).bind fun id => ih.bind fun ids => adds_pure (id :: ids)

end Recorder

namespace Term

open Recorder

mutual

theorem adds_record (scope : Scope) : (t : Term) → Adds Op.OfBody (t.record scope)
  | param _ | shared _ | const _ | captured _ _ | foreign => adds_pure _
  | field base name | element base name | streamOf base name | unary name base | apply name base
  | stream base =>
    (adds_record scope base).bind fun b => adds_onHandle b fun _ =>
      Recorder.adds_record ⟨nofun, by simp [Op.HasOperands]⟩
  | tuple first rest | call _ first rest =>
    (adds_record scope first).bind fun a => (adds_recordAll scope rest).bind fun others =>
      adds_onHandle a fun id => (adds_mapM_lift others).bind fun ids =>
        Recorder.adds_record ⟨nofun, List.cons_ne_nil id ids⟩
  | branch condition whenTrue whenFalse =>
    (adds_record scope condition).bind fun c => (adds_record scope whenTrue).bind fun a =>
      (adds_record scope whenFalse).bind fun b => adds_onHandle c fun _ =>
        (adds_lift a).bind fun _ => (adds_lift b).bind fun _ =>
          Recorder.adds_record ⟨nofun, trivial⟩
  | binary op left right =>
    (adds_record scope left).bind fun a => (adds_record scope right).bind fun b =>
      adds_onHandle a fun _ => (adds_lift b).bind fun _ => Recorder.adds_record ⟨nofun, trivial⟩

theorem adds_recordAll (scope : Scope) : (ts : List Term) → Adds Op.OfBody (recordAll scope ts)
  | [] => adds_pure []
  | t :: ts =>
    (adds_record scope t).bind fun first =>
      (adds_recordAll scope ts).bind fun rest => adds_pure (first :: rest)

end

end Term

namespace Lambda

open Recorder

theorem adds_recordShared (arity : Nat) (shared : List Operand) (preparation : List Term) :
    Adds Op.OfBody (recordShared arity shared preparation) := by
  induction preparation generalizing shared with
  | nil => exact adds_pure shared
  | cons t ts ih =>
    exact (Term.adds_record ⟨arity, shared⟩ t).bind fun operand => ih (shared ++ [operand])

/-- Recording starts with the parameters. -/
theorem run_parameters (indices : List Nat) (r : Recording) :
    (indices.forM fun index => discard (push (.param index))).run r =
      ((), { r with ops := r.ops ++ indices.map .param }) := by
  induction indices generalizing r with
  | nil => simp only [List.map_nil, List.append_nil]; rfl
  | cons index indices ih =>
    refine (ih { r with ops := r.ops ++ [.param index] }).trans ?_
    rw [List.append_assoc, List.map_cons, List.singleton_append]

theorem ops_recordBody (arity : Nat) (preparation : List Term) (body : Term) :
    ∃ new, ((recordBody arity preparation body).run {}).2.ops =
      (List.range arity).map .param ++ new ∧ ∀ op ∈ new, op.OfBody := by
  have rest : Adds Op.OfBody (do
      let shared ← recordShared arity [] preparation
      lift (← body.record ⟨arity, shared⟩)) :=
    (adds_recordShared arity [] preparation).bind fun shared =>
      (Term.adds_record ⟨arity, shared⟩ body).bind adds_lift
  obtain ⟨new, grown, ofBody⟩ := rest
    (((List.range arity).forM fun index => discard (push (.param index))).run {}).2
  exact ⟨new, grown.trans (by rw [run_parameters]; rfl), ofBody⟩

/-- A trace has the parameters of its lambda first, and then what the body recorded. -/
theorem ops_of_extract {f : Lambda} {t : Trace} (h : f.extract = .ok t) :
    ∃ new, t.ops = (List.range f.arity).map .param ++ new ∧ ∀ op ∈ new, op.OfBody := by
  cases f with
  | sealed run => cases h
  | traced arity preparation body =>
    have recorded := ops_recordBody arity preparation body
    rw [extract] at h
    generalize (recordBody arity preparation body).run {} = found at h recorded
    obtain ⟨result, ops, leaked⟩ := found
    cases leaked with
    | true => cases h
    | false =>
      obtain rfl := Except.ok.inj h
      exact recorded

/-- In the trace of a lambda tuples and calls have operands. -/
theorem hasOperands_of_extract {f : Lambda} {t : Trace} (h : f.extract = .ok t) :
    ∀ op ∈ t.ops, op.HasOperands := by
  obtain ⟨new, recorded, ofBody⟩ := ops_of_extract h
  rw [recorded, List.forall_mem_append]
  exact ⟨List.forall_mem_map.2 fun _ _ => trivial, fun op hop => (ofBody op hop).hasOperands⟩

theorem extract_of_client {f : Lambda} {t : Trace} (h : f.client = .ok (.traced t)) :
    f.extract = .ok t := by
  cases f with
  | sealed run => cases h
  | traced arity preparation body =>
    change (traced arity preparation body).extract.map ClientFunction.traced = _ at h
    cases extracted : (traced arity preparation body).extract with
    | error e =>
      rw [extracted] at h
      cases h
    | ok t' =>
      rw [extracted] at h
      rw [ClientFunction.traced.inj (Except.ok.inj h)]

end Lambda
end EntityQuery
