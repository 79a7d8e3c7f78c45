import EntityQuery.Proofs.QueryForm.Making

/-! Interpretation yields formed expressions: each operation makes them of formed ones, and so does
a whole trace. -/
namespace EntityQuery
namespace QueryForm

variable {m : Metamodel} {sources : List String} {bindings : List Binding}

/-- Resolving an operator again changes nothing. -/
theorem resolveOp_resolveOp (op : BinaryOp) (a b : ExprType) :
    resolveOp (resolveOp op a b) a b = resolveOp op a b := by
  unfold resolveOp
  split <;> simp_all

theorem nullTest_eq (op : BinaryOp) : nullTest op = .isNull ∨ nullTest op = .isNotNull := by
  unfold nullTest
  split <;> simp

/-- An operation makes a formed expression of formed ones. -/
theorem Makes.formed {read : Nat → Expr} {op : Op} {e : Expr} (h : Makes m bindings read op e)
    (given : ∀ b, Binding.element b ∈ bindings → b.Formed m sources)
    (inputs : ∀ id ∈ op.inputs, (read id).Formed m sources) : e.Formed m sources := by
  cases h with
  | given bound => exact given e (List.mem_of_getElem? bound)
  | constant => exact .constant _
  | capture literal => exact .parameter literal
  | field typed => exact (inputs _ List.mem_cons_self).navigate typed
  | nullTest _ null =>
    exact .unary (inputs _ (mem_operands_of_null null)) ((nullTest_eq _).imp_right .inl)
  | binary admitted =>
    simp only [Op.inputs, List.forall_mem_cons] at inputs
    exact .binary inputs.1 inputs.2.1 (resolveOp_resolveOp _ _ _) admitted
  | unary admitted => exact .unary (inputs _ List.mem_cons_self) (.inr (.inr admitted))
  | branch boolean singleTrue singleFalse =>
    simp only [Op.inputs, List.forall_mem_cons] at inputs
    obtain ⟨condition, whenTrue, whenFalse, -⟩ := inputs
    exact .conditional condition whenTrue whenFalse boolean singleTrue singleFalse
  | tuple => exact .tupleOf (List.forall_mem_map.2 inputs)
  | component part => exact (inputs _ List.mem_cons_self).of_element? part
  | apply accepted =>
    exact .apply (List.forall_mem_map.2 inputs) (List.forall_mem_map.2 accepted)

end QueryForm

open QueryForm

variable {m : Metamodel} {sources : List String}

namespace Trace

variable {t : Trace} {bindings : List Binding}

/-- Each operation stands for a formed expression, if it stands for one. -/
theorem formed_reading {id : Nat} (given : ∀ e, Binding.element e ∈ bindings → e.Formed m sources)
    (supported : (t.reading m bindings id).isUnsupported = false) :
    (t.reading m bindings id).Formed m sources :=
  t.reading_induction
    (fun _ _ _ _ made inputs => made.formed given fun i hi => (inputs i hi).2) supported

theorem formed_queryForm {e : Expr} (given : ∀ e, Binding.element e ∈ bindings → e.Formed m sources)
    (form : t.queryForm m bindings = .expr e) (supported : e.isUnsupported = false) :
    e.Formed m sources := by
  have result := (queryForm_expr form supported).2
  rw [← result] at supported ⊢
  exact formed_reading given supported

/-- The path of a source that a query form joins is one that reads a collection. -/
theorem formed_of_path {id : Nat} {path : List String} {entity : String}
    (given : ∀ e, Binding.element e ∈ bindings → e.Formed m sources)
    (h : t.queryForm m bindings = .join (.path id path entity)) :
    ∃ start, Expr.Formed m sources (.field (.source id start) path (.collection entity)) := by
  obtain ⟨-, op, -, streams⟩ := queryForm_join h
  cases streams with
  | @collection base _ start _ _ reached =>
    exact ⟨start, reached ▸ formed_reading given (reached ▸ rfl)⟩

end Trace

/-- Every translated expression is formed. -/
theorem Translated.formed {e : Expr} (h : Translated m sources e) : e.Formed m sources := by
  induction h with
  | source known => exact .source known
  | lambda _ form supported ih => exact Trace.formed_queryForm ih form supported
  | pair _ known ih => exact .tupleOf (by simp [ih, Expr.Formed.source known])

end EntityQuery
