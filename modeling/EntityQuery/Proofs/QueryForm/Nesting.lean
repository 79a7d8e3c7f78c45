import EntityQuery.Proofs.Lambda.Recording
import EntityQuery.Proofs.QueryForm.Columns

/-! The nesting of tuples that lambdas make. No tuple is empty, and so every part of a nesting takes
a column at least. -/
namespace EntityQuery

/-- No group is empty. -/
inductive Nesting.Solid : Nesting → Prop
  | leaf : Solid leaf
  | group {parts : List Nesting} (some : parts ≠ []) (each : ∀ n ∈ parts, Solid n) :
    Solid (group parts)

theorem Nesting.Solid.width_pos {n : Nesting} (h : n.Solid) : 0 < n.width := by
  induction h with
  | leaf => exact Nat.one_pos
  | @group parts some each ih =>
    obtain ⟨first, rest, rfl⟩ := List.exists_cons_of_ne_nil some
    exact Nat.add_pos_left (ih first List.mem_cons_self) _

namespace Expr

variable {e c : Expr}

theorem solid_of_single (single : e.isTuple = false) : e.nesting.Solid :=
  nesting_eq single ▸ .leaf

theorem solid_tupleOf {items : List Expr} (some : items ≠ [])
    (each : ∀ e ∈ items, e.nesting.Solid) : (tupleOf items).nesting.Solid :=
  .group (by simpa using some) (List.forall_mem_map.2 each)

/-- A component is nested as its part of the tuple is. -/
theorem solid_element? {index : Nat} (h : e.element? index = some c)
    (flat : e.Columnwise (·.isTuple = false)) (solid : e.nesting.Solid) : c.nesting.Solid := by
  unfold element? at h
  split at h
  · next es parts index =>
    simp only [Option.bind_eq_bind, Option.bind_eq_some_iff] at h
    obtain ⟨part, found, h⟩ := h
    unfold part? at h
    split at h
    · exact solid_of_single (flat c (List.mem_of_getElem? h))
    · dsimp only at h
      split at h
      · obtain rfl := Option.some.inj h
        cases solid with
        | group _ each => exact each _ (List.mem_of_getElem? found)
      · cases h
  · cases h

end Expr

open QueryForm

/-- A trace whose tuples have items makes of solid expressions solid ones. -/
theorem Trace.solid_queryForm {m : Metamodel} {bindings : List Binding} {t : Trace} {e : Expr}
    (operands : ∀ op ∈ t.ops, op.HasOperands)
    (flat : ∀ b, Binding.element b ∈ bindings → b.Columnwise (·.isTuple = false))
    (solid : ∀ b, Binding.element b ∈ bindings → b.nesting.Solid)
    (form : t.queryForm m bindings = .expr e) (supported : e.isUnsupported = false) :
    e.nesting.Solid := by
  refine (t.queryForm_induction (P := fun e => e.Columnwise (·.isTuple = false) ∧ e.nesting.Solid)
    form supported ?_).2
  intro op hop e _ made inputs
  have inputs (i : Nat) (hi : i ∈ op.inputs) := (inputs i hi).2
  refine ⟨made.columnwise Expr.inherited_flat flat fun i hi => (inputs i hi).1, ?_⟩
  cases made with
  | given bound => exact solid e (List.mem_of_getElem? bound)
  | @tuple items =>
    have some : items ≠ [] := operands _ hop
    exact Expr.solid_tupleOf (by simpa using some)
      (List.forall_mem_map.2 fun i hi => (inputs i hi).2)
  | @component base index _ part =>
    obtain ⟨flat, solid⟩ := inputs base List.mem_cons_self
    exact Expr.solid_element? part flat solid
  | field => exact Expr.solid_of_single (Expr.Over.navigate _ _ _).isTuple
  | _ => exact .leaf

end EntityQuery
