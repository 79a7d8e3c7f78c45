import EntityQuery.Proofs.QueryForm.Making

/-! The columns of what traces translate to. An operation passes on columns of its inputs, or makes
one node over them. A property that such nodes have whenever the columns of their operands have it
is one of every column that a lambda makes of an element, if it is one of the columns of the
element. -/
namespace EntityQuery

namespace Expr

variable {P : Expr → Prop} {e : Expr}

/-- All columns of an expression have the property. -/
def Columnwise (P : Expr → Prop) (e : Expr) : Prop := ∀ c ∈ e.columns, P c

/-- Nodes that stand for themselves. -/
def isOperandFree : Expr → Bool
  | constant _ | parameter _ _ | unsupported _ => true
  | _ => false

/-- Nodes over operands. They are single columns, whatever the operands are. -/
inductive Over : Expr → List Expr → Prop
  | navigate (base : Expr) (name : String) (type : ExprType) : Over (base.navigate name type) [base]
  | binary (op : BinaryOp) (left right : Expr) : Over (.binary op left right) [left, right]
  | unary (op : UnaryOp) (operand : Expr) : Over (.unary op operand) [operand]
  | conditional (c a b : Expr) : Over (.conditional c a b) [c, a, b]
  | apply (fn : ScalarFn) (arguments : List Expr) : Over (.apply fn arguments) arguments

/-- A property of columns that operations pass on. -/
structure Inherited (P : Expr → Prop) : Prop where
  single : ∀ e : Expr, P e → e.isTuple = false
  operandFree : ∀ e : Expr, e.isOperandFree → P e
  node : ∀ {e : Expr} {operands : List Expr}, e.Over operands →
    (∀ o ∈ operands, o.Columnwise P) → P e

theorem columnwise_single (single : e.isTuple = false) : e.Columnwise P ↔ P e := by
  rw [Columnwise, columns_eq single, List.forall_mem_singleton]

theorem Over.isTuple {operands : List Expr} (h : e.Over operands) : e.isTuple = false := by
  cases h with
  | navigate base => cases base <;> rfl
  | _ => rfl

theorem columnwise_tupleOf {items : List Expr} (h : ∀ e ∈ items, e.Columnwise P) :
    (tupleOf items).Columnwise P := by
  intro c hc
  obtain ⟨e, he, hc⟩ := List.mem_flatMap.1 hc
  exact h e he c hc

/-- The columns of a component are among those of the tuple. -/
theorem mem_columns_of_element? {c d : Expr} {index : Nat} (h : e.element? index = some c)
    (single : ∀ d ∈ e.columns, d.isTuple = false) (hd : d ∈ c.columns) : d ∈ e.columns := by
  unfold element? at h
  split at h
  · next es parts index =>
    simp only [Option.bind_eq_bind, Option.bind_eq_some_iff] at h
    obtain ⟨part, -, h⟩ := h
    unfold part? at h
    split at h
    · have member := List.mem_of_getElem? h
      rw [columns_eq (single c member)] at hd
      exact List.mem_singleton.1 hd ▸ member
    · dsimp only at h
      split at h
      · obtain rfl := Option.some.inj h
        exact List.mem_of_mem_drop (List.mem_of_mem_take hd)
      · cases h
  · cases h

theorem isTuple_of_element? {c : Expr} {index : Nat} (h : e.element? index = some c) :
    e.isTuple := by
  cases e <;> first | rfl | cases h

theorem inherited_flat : Inherited (·.isTuple = false) where
  single _ h := h
  operandFree e h := by cases e <;> first | rfl | cases h
  node h _ := h.isTuple

namespace Inherited

variable (inherited : Inherited P)
include inherited

theorem columnwise (h : e.isOperandFree) : e.Columnwise P :=
  have has := inherited.operandFree e h
  (columnwise_single (inherited.single e has)).2 has

theorem columnwise_over {operands : List Expr} (h : e.Over operands)
    (each : ∀ o ∈ operands, o.Columnwise P) : e.Columnwise P :=
  (columnwise_single h.isTuple).2 (inherited.node h each)

end Inherited
end Expr

open QueryForm

variable {m : Metamodel} {bindings : List Binding}

/-- An operation passes on what holds of the columns of its inputs. -/
theorem QueryForm.Makes.columnwise {P : Expr → Prop} {read : Nat → Expr} {op : Op} {e : Expr}
    (h : Makes m bindings read op e) (inherited : Expr.Inherited P)
    (given : ∀ e, Binding.element e ∈ bindings → e.Columnwise P)
    (inputs : ∀ id ∈ op.inputs, (read id).Columnwise P) : e.Columnwise P := by
  have all (items : List Nat) (each : ∀ id ∈ items, (read id).Columnwise P) :
      ∀ e ∈ items.map read, e.Columnwise P := List.forall_mem_map.2 each
  cases h with
  | given bound => exact given e (List.mem_of_getElem? bound)
  | constant | capture => exact inherited.columnwise rfl
  | @field base => exact inherited.columnwise_over (.navigate _ _ _) (all [base] inputs)
  | @nullTest _ _ _ operand _ null =>
    have tested := inputs operand (mem_operands_of_null null)
    exact inherited.columnwise_over (.unary _ _) (List.forall_mem_singleton.2 tested)
  | @binary _ l r =>
    exact inherited.columnwise_over (.binary _ _ _) (all [l, r] inputs)
  | @unary _ operand =>
    exact inherited.columnwise_over (.unary _ _) (all [operand] inputs)
  | @branch c a b =>
    exact inherited.columnwise_over (.conditional _ _ _) (all [c, a, b] inputs)
  | tuple => exact Expr.columnwise_tupleOf (all _ inputs)
  | @component base _ _ part =>
    have columns := inputs base List.mem_cons_self
    have single (d : Expr) (hd : d ∈ (read base).columns) := inherited.single d (columns d hd)
    exact fun d hd => columns d (Expr.mem_columns_of_element? part single hd)
  | apply => exact inherited.columnwise_over (.apply _ _) (all _ inputs)

namespace Trace

variable {t : Trace} {e c : Expr}

theorem columnwise_queryForm {P : Expr → Prop} (inherited : Expr.Inherited P)
    (given : ∀ e, Binding.element e ∈ bindings → e.Columnwise P)
    (form : t.queryForm m bindings = .expr e) (supported : e.isUnsupported = false) :
    e.Columnwise P :=
  t.queryForm_induction form supported fun _ _ _ _ made inputs =>
    made.columnwise inherited given fun i hi => (inputs i hi).2

/-- A column of a tuple that a trace translates to is a column of what is bound, or an operation of
the trace makes a tuple with it. -/
theorem exists_of_mem_columns
    (flat : ∀ b, Binding.element b ∈ bindings → b.Columnwise (·.isTuple = false))
    (form : t.queryForm m bindings = .expr e) (supported : e.isUnsupported = false)
    (tuple : e.isTuple) (hc : c ∈ e.columns) :
    (∃ b, Binding.element b ∈ bindings ∧ c ∈ b.columns) ∨
      ∃ items, Op.tuple items ∈ t.ops ∧ ∃ i ∈ items, t.reading m bindings i = c := by
  refine (t.queryForm_induction (P := fun e => e.Columnwise (·.isTuple = false) ∧
    (e.isTuple → ∀ c ∈ e.columns, (∃ b, Binding.element b ∈ bindings ∧ c ∈ b.columns) ∨
      ∃ items, Op.tuple items ∈ t.ops ∧ ∃ i ∈ items, t.reading m bindings i = c))
    form supported ?_).2 tuple c hc
  intro op hop e _ made inputs
  have inputs (i : Nat) (hi : i ∈ op.inputs) := (inputs i hi).2
  refine ⟨made.columnwise Expr.inherited_flat flat fun i hi => (inputs i hi).1,
    fun tuple c hc => ?_⟩
  cases made with
  | given bound => exact .inl ⟨e, List.mem_of_getElem? bound, hc⟩
  | @tuple items =>
    obtain ⟨e, he, hc⟩ := List.mem_flatMap.1 hc
    obtain ⟨i, hi, rfl⟩ := List.mem_map.1 he
    cases whole : (t.reading m bindings i).isTuple with
    | true => exact (inputs i hi).2 whole c hc
    | false =>
      rw [Expr.columns_eq whole, List.mem_singleton] at hc
      exact .inr ⟨items, hop, i, hi, hc.symm⟩
  | @component base index _ part =>
    obtain ⟨single, before⟩ := inputs base List.mem_cons_self
    exact before (Expr.isTuple_of_element? part) c (Expr.mem_columns_of_element? part single hc)
  | @field base name type =>
    have single : ((t.reading m bindings base).navigate name type).isTuple = false :=
      (Expr.Over.navigate _ _ _).isTuple
    simp [single] at tuple
  | _ => cases tuple

end Trace
end EntityQuery
