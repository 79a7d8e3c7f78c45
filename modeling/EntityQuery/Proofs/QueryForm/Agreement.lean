import EntityQuery.Proofs.Lambda.Yields
import EntityQuery.Proofs.QueryForm.Arms
import EntityQuery.Proofs.QueryForm.Operations

/-! Interpretation agrees with evaluation. Where the inputs of an operation have the values of what
they stand for, so has the operation; the memo of an evaluation keeps only such values. So a trace
that has a value on the values of its bindings gives the value of its query form. -/
namespace EntityQuery

open QueryForm

variable {m : Metamodel} {sources : List String} {row : SourceRow}

/-- What all elements among bindings have, each of them has. -/
theorem QueryForm.of_mem_elements {P : Expr → Prop} {bindings : List Expr} (h : ∀ b ∈ bindings, P b)
    (e : Expr) (he : Binding.element e ∈ bindings.map .element) : P e := by
  obtain ⟨_, hb, same⟩ := List.mem_map.1 he
  cases same
  exact h _ hb

namespace Evaluation

variable {τ : Type} {inv : Progress τ → Prop}

/-- Every result is the value of an expression. -/
abbrev YieldsValue (inv : Progress τ → Prop) (row : SourceRow) (x : Evaluation τ Value) (e : Expr) :
    Prop := Yields inv x fun v => e.value row = .ok v

section Compute

variable {read : Nat → Expr} {value : Nat → Evaluation τ Value}
  (source : EntitySource τ) (arguments : List Value)

theorem compute_nullTest {op : BinaryOp} {left right operand : Nat} (equality : op.isEquality)
    (null : operand = left ∧ (read right).isNullLiteral ∨
      operand = right ∧ (read left).isNullLiteral)
    (hl : YieldsValue inv row (value left) (read left))
    (hr : YieldsValue inv row (value right) (read right)) :
    YieldsValue inv row (compute source arguments value (.binary op left right))
      (.unary (nullTest op) (read operand)) := by
  refine yields_bind hl fun a ha => ?_
  have both : YieldsValue inv row (value right >>= fun b => liftM (Value.binary op a b))
      (.unary (nullTest op) (read operand)) :=
    yields_bind hr fun b hb => yields_lift fun v hv => value_nullTest equality null ha hb hv
  cases op <;> first | exact both | cases equality

theorem compute_binary {op : BinaryOp} {left right : Nat}
    (typedLeft : ∀ v, (read left).value row = .ok v → m.Conforms (read left).type v)
    (typedRight : ∀ v, (read right).value row = .ok v → m.Conforms (read right).type v)
    (hl : YieldsValue inv row (value left) (read left))
    (hr : YieldsValue inv row (value right) (read right)) :
    YieldsValue inv row (compute source arguments value (.binary op left right))
      (.binary (resolveOp op (read left).type (read right).type) (read left) (read right)) := by
  refine yields_bind hl fun a ha => ?_
  have alone (decides : Expr.decidesAlone op a) :
      (Expr.binary (resolveOp op (read left).type (read right).type) (read left)
        (read right)).value row = .ok a := by
    refine Expr.value_binary.2 ⟨a, ha, ?_⟩
    rw [decidesAlone_resolveOp, if_pos decides]
  have both (decides : Expr.decidesAlone op a = false) :
      YieldsValue inv row (value right >>= fun b => liftM (Value.binary op a b))
        (.binary (resolveOp op (read left).type (read right).type) (read left) (read right)) := by
    refine yields_bind hr fun b hb => yields_lift fun v hv => ?_
    refine Expr.value_binary.2 ⟨a, ha, ?_⟩
    rw [decidesAlone_resolveOp, decides]
    exact ⟨b, hb, binary_resolveOp (typedLeft a ha) (typedRight b hb) hv⟩
  unfold Expr.decidesAlone at alone both
  split <;> first | exact yields_pure (alone rfl) | skip
  refine both ?_
  split <;> simp_all

theorem compute_branch {condition whenTrue whenFalse : Nat} {c a b : Expr}
    (hc : YieldsValue inv row (value condition) c) (ha : YieldsValue inv row (value whenTrue) a)
    (hb : YieldsValue inv row (value whenFalse) b) :
    YieldsValue inv row (compute source arguments value (.branch condition whenTrue whenFalse))
      (.conditional c a b) := by
  refine yields_bind hc fun v hv => ?_
  split
  · exact ha.mono fun w hw => Expr.value_conditional.2 (.inl ⟨hv, hw⟩)
  · exact hb.mono fun w hw => Expr.value_conditional.2 (.inr ⟨hv, hw⟩)
  · exact yields_throw _

theorem compute_element {base index : Nat} {e c : Expr} (formed : e.Formed m sources)
    (part : e.element? index = some c) (he : YieldsValue inv row (value base) e) :
    YieldsValue inv row (compute source arguments value (.element base index)) c := by
  refine yields_bind he fun v hv => ?_
  obtain ⟨w, component, hw⟩ := Expr.value_element? formed part hv
  split
  · next items =>
    split
    · next found =>
      obtain rfl := Option.some.inj (found.symm.trans component)
      exact yields_pure hw
    · exact yields_throw _
  · exact yields_throw _

/-- An operation has the value of what it makes, if its inputs have the values of what they stand
for. -/
theorem compute_agrees {bindings : List Expr} {op : Op} {e : Expr}
    (made : Makes m (bindings.map .element) read op e)
    (hargs : List.Forall₂ (fun b a => b.value row = .ok a) bindings arguments)
    (formed : ∀ id ∈ op.inputs, (read id).Formed m sources)
    (typed : ∀ id ∈ op.inputs, ∀ v, (read id).value row = .ok v → m.Conforms (read id).type v)
    (inputs : ∀ id ∈ op.inputs, YieldsValue inv row (value id) (read id)) :
    YieldsValue inv row (compute source arguments value op) e := by
  have each {items : List Nat} (h : ∀ id ∈ items, YieldsValue inv row (value id) (read id)) :
      Yields inv (items.mapM value) fun vs =>
        List.Forall₂ (fun e v => e.value row = .ok v) (items.map read) vs :=
    (yields_mapM h).mono fun vs hvs => List.forall₂_map_left_iff.2 hvs
  cases made with
  | @given index e bound =>
    rw [List.getElem?_map, Option.map_eq_some_iff] at bound
    obtain ⟨b, bound, same⟩ := bound
    cases same
    rw [compute]
    split
    · next a found =>
      refine yields_pure ?_
      obtain ⟨hi, rfl⟩ := List.getElem?_eq_some_iff.1 bound
      obtain ⟨hj, rfl⟩ := List.getElem?_eq_some_iff.1 found
      exact hargs.get hi hj
    · exact yields_throw _
  | constant literal =>
    exact yields_pure (by rw [Expr.value, Literal.value_of_ofValue? literal])
  | capture => exact yields_pure rfl
  | field =>
    refine yields_bind (inputs _ List.mem_cons_self) fun a ha => ?_
    exact yields_lift fun v hv => value_navigate ha hv
  | nullTest equality null =>
    simp only [Op.inputs, List.forall_mem_cons] at inputs
    exact compute_nullTest source arguments equality null inputs.1 inputs.2.1
  | binary =>
    simp only [Op.inputs, List.forall_mem_cons] at inputs typed
    exact compute_binary source arguments typed.1 typed.2.1 inputs.1 inputs.2.1
  | unary =>
    refine yields_bind (inputs _ List.mem_cons_self) fun a ha => ?_
    exact yields_lift fun v hv => Expr.value_unary.2 ⟨a, ha, hv⟩
  | branch =>
    simp only [Op.inputs, List.forall_mem_cons] at inputs
    obtain ⟨condition, whenTrue, whenFalse, -⟩ := inputs
    exact compute_branch source arguments condition whenTrue whenFalse
  | tuple =>
    refine yields_bind (each inputs) fun vs hvs => yields_pure ?_
    exact Expr.value_tupleOf (List.forall_mem_map.2 formed) hvs
  | component part =>
    exact compute_element source arguments (formed _ List.mem_cons_self) part
      (inputs _ List.mem_cons_self)
  | apply =>
    refine yields_bind (each inputs) fun vs hvs => ?_
    cases vs with
    | nil => exact yields_throw _
    | cons a vs =>
      exact yields_lift fun v hv => Expr.value_apply.2 ⟨a, vs, Expr.values_eq_ok.2 hvs, hv⟩

end Compute

/-- The memo holds values of what the operations stand for. -/
def Remembers (row : SourceRow) (known : List Meaning) (p : Progress τ) : Prop :=
  ∀ id v, p.memo.lookup id = some v → (meaning.exprOf known id).isUnsupported = false →
    (meaning.exprOf known id).value row = .ok v

theorem Remembers.cons {known : List Meaning} {p : Progress τ} (h : Remembers row known p)
    {id : Nat} {v : Value} (hv : (meaning.exprOf known id).value row = .ok v) :
    Remembers row known { p with memo := (id, v) :: p.memo } := by
  intro id' v' hlookup
  rw [List.lookup_cons] at hlookup
  split at hlookup
  · next same =>
    obtain rfl := Option.some.inj hlookup
    obtain rfl := eq_of_beq same
    exact fun _ => hv
  · exact h id' v' hlookup

/-- Computing an operation on demand gives the value of what it stands for. -/
theorem valueOf_agrees (source : EntitySource τ) {t : Trace} {bindings : List Expr}
    {arguments : List Value} (hrow : m.ConformingRow sources row)
    (formed : ∀ b ∈ bindings, b.Formed m sources) (arms : ∀ b ∈ bindings, b.AllArmsAgree)
    (branches : t.BranchesAgree m (bindings.map .element))
    (hargs : List.Forall₂ (fun b a => b.value row = .ok a) bindings arguments) (fuel id : Nat)
    (supported : (t.reading m (bindings.map .element) id).isUnsupported = false) :
    YieldsValue (Remembers row (meanings m (bindings.map .element) t.ops)) row
      (valueOf source arguments t.ops fuel id) (t.reading m (bindings.map .element) id) := by
  have known (id : Nat) (h : (t.reading m (bindings.map .element) id).isUnsupported = false) :=
    Trace.formed_reading (of_mem_elements formed) h
  have agree := Trace.reading_armsAgree (of_mem_elements arms) branches
  induction fuel generalizing id with
  | zero => exact yields_throw _
  | succ fuel ih =>
    refine yields_bind yields_get fun p hp => ?_
    split
    · next v remembered => exact yields_pure (hp id v remembered supported)
    obtain ⟨op, recorded, inputs, made⟩ := t.makes supported
    rw [recorded]
    dsimp only
    have inputs (i : Nat) (hi : i ∈ op.inputs) := (inputs i hi).2
    have computed := compute_agrees source arguments made hargs
      (fun i hi => known i (inputs i hi))
      (fun i hi v hv => (known i (inputs i hi)).conforms hrow (agree i) hv)
      (fun i hi => ih i (inputs i hi))
    refine yields_bind computed fun v hv => ?_
    exact yields_bind (yields_modify fun p hp => hp.cons hv) fun _ _ => yields_pure hv

end Evaluation

/-- The query form of a trace has each value that the trace has on the values of its bindings. -/
theorem Trace.value_of_call {τ : Type} {source : EntitySource τ} {state : τ}
    {calls : List Invocation} {t : Trace} {bindings : List Expr} {arguments : List Value} {e : Expr}
    {v : Value} (hrow : m.ConformingRow sources row) (formed : ∀ b ∈ bindings, b.Formed m sources)
    (arms : ∀ b ∈ bindings, b.AllArmsAgree)
    (branches : t.BranchesAgree m (bindings.map .element))
    (hargs : List.Forall₂ (fun b a => b.value row = .ok a) bindings arguments)
    (form : t.queryForm m (bindings.map .element) = .expr e) (supported : e.isUnsupported = false)
    (run : ((ClientFunction.traced t).call source arguments calls state).1 = .ok v) :
    e.value row = .ok v := by
  obtain ⟨noCalls, rfl⟩ := Trace.queryForm_expr form supported
  have agrees := Evaluation.valueOf_agrees source hrow formed arms branches hargs t.ops.length
    t.result supported
  refine (agrees { calls, source := state } fun id v h => by cases h).2 v ?_
  rw [ClientFunction.call, ClientFunction.evaluation, Evaluation.ofTrace,
    Trace.independentCalls_eq_nil noCalls] at run
  exact run

/-- Query forms of traces over expressions whose arms agree have formed expressions with agreeing
arms. -/
theorem Trace.queryForm_formed {t : Trace} {bindings : List Expr} {e : Expr}
    (formed : ∀ b ∈ bindings, b.Formed m sources) (arms : ∀ b ∈ bindings, b.AllArmsAgree)
    (branches : t.BranchesAgree m (bindings.map .element))
    (form : t.queryForm m (bindings.map .element) = .expr e) (supported : e.isUnsupported = false) :
    e.Formed m sources ∧ e.AllArmsAgree := by
  have result := (Trace.queryForm_expr form supported).2
  exact ⟨Trace.formed_queryForm (of_mem_elements formed) form supported,
    result ▸ Trace.reading_armsAgree (of_mem_elements arms) branches _⟩

/-- Interpretation agrees with evaluation, where the arms of branches and of the conditionals in
bindings agree. -/
theorem Trace.queryForm_agrees {τ : Type} (source : EntitySource τ) (state : τ)
    (calls : List Invocation) {t : Trace} {bindings : List Expr} {arguments : List Value} {e : Expr}
    {v : Value} (hrow : m.ConformingRow sources row)
    (translated : ∀ b ∈ bindings, Translated m sources b)
    (arms : ∀ b ∈ bindings, b.AllArmsAgree)
    (branches : t.BranchesAgree m (bindings.map .element))
    (hargs : List.Forall₂ (fun b a => b.value row = .ok a) bindings arguments)
    (form : t.queryForm m (bindings.map .element) = .expr e) (supported : e.isUnsupported = false)
    (run : ((ClientFunction.traced t).call source arguments calls state).1 = .ok v) :
    e.value row = .ok v :=
  Trace.value_of_call hrow (fun b hb => (translated b hb).formed) arms branches hargs form supported
    run

/-- One entity type to run examples on. -/
def debtors : Metamodel := [("Customer", [("debt", .scalar .numeric), ("vip", .scalar .boolean)])]

def debtor : Value := .entity "Customer" [("debt", .int 1), ("vip", .bool false)]

theorem debtor_conforms : debtors.ConformingRow ["Customer"] [debtor] := by
  refine .cons (.entity_of_entries ?_) .nil
  simp only [List.forall_mem_cons]
  refine ⟨fun kind h => ?_, fun kind h => ?_, by simp⟩
  · cases h
    exact .int 1
  · cases h
    exact .bool false

/-- `fun c => (if c.vip then 0 else c.debt) + 2` -/
def debtTrace : Trace where
  arity := 1
  ops := [.param 0, .field 0 "vip", .const (.int 0), .field 0 "debt", .branch 1 2 3,
    .const (.int 2), .binary .add 4 5]
  result := 6

theorem queryForm_agrees_debtor :
    (Expr.binary .add
      (.conditional (.field (.source 0 "Customer") ["vip"] .boolean) (.constant (.int 0))
        (.field (.source 0 "Customer") ["debt"] .numeric))
      (.constant (.int 2))).value [debtor] = .ok (.int 3) := by
  have binding : Translated debtors ["Customer"] (.source 0 "Customer") := .source rfl
  have argument : List.Forall₂ (fun b a => b.value [debtor] = .ok a) [Expr.source 0 "Customer"]
      [debtor] := .cons rfl .nil
  have branches : debtTrace.BranchesAgree debtors ([Expr.source 0 "Customer"].map .element) := by
    intro c a b h
    simp [debtTrace] at h
    obtain ⟨rfl, rfl, rfl⟩ := h
    rfl
  exact Trace.queryForm_agrees noEntities () [] debtor_conforms (by simpa using binding)
    (by simp [Expr.AllArmsAgree, Expr.nodes, Expr.armsAgree]) branches argument rfl rfl rfl

/-- `fun c => if c.vip then "a" else 1` -/
def mixedTrace : Trace where
  arity := 1
  ops := [.param 0, .field 0 "vip", .const (.string "a"), .const (.int 1), .branch 1 2 3]
  result := 4

/-- `fun x => x + 2` -/
def sumTrace : Trace := ⟨1, [.param 0, .const (.int 2), .binary .add 0 1], 2⟩

def mixedArms : Expr :=
  .conditional (.field (.source 0 "Customer") ["vip"] .boolean) (.constant (.string "a"))
    (.constant (.int 1))

/-- The arms of a binding matter too: with a text in one arm a sum is taken for a concatenation
also where the other arm, a number, is the one taken. -/
theorem queryForm_disagrees_of_mixedArms :
    debtors.ConformingRow ["Customer"] [debtor] ∧
    Translated debtors ["Customer"] mixedArms ∧
    mixedArms.value [debtor] = .ok (.int 1) ∧
    sumTrace.externalCalls = [] ∧
    sumTrace.BranchesAgree debtors [.element mixedArms] ∧
    sumTrace.queryForm debtors [.element mixedArms] =
      .expr (.binary .concat mixedArms (.constant (.int 2))) ∧
    ((ClientFunction.traced sumTrace).call noEntities [.int 1] [] ()).1 = .ok (.int 3) ∧
    (Expr.binary .concat mixedArms (.constant (.int 2))).value [debtor] ≠ .ok (.int 3) := by
  refine ⟨debtor_conforms, ?_, rfl, rfl, by simp [Trace.BranchesAgree, sumTrace], rfl, rfl, ?_⟩
  · have reached (b : Expr) (h : Binding.element b ∈ [Binding.element (.source 0 "Customer")]) :
        Translated debtors ["Customer"] b := by
      cases List.mem_singleton.1 h
      exact .source rfl
    exact .lambda (t := mixedTrace) reached rfl rfl
  · exact fun h => by cases h

end EntityQuery
