import EntityQuery.QueryForm
import Mathlib.Data.List.Induction

/-! What the operations of a recording stand for. An operation depends on the ones before it alone,
so it stands for the same in the whole recording, and the query form of a trace is what its result
stands for. -/
namespace EntityQuery
namespace QueryForm

/-- What a recording stands for, one operation longer. -/
theorem meanings_concat (m : Metamodel) (bindings : List Binding) (ops : List Op) (op : Op) :
    meanings m bindings (ops ++ [op]) =
      meanings m bindings ops ++ [meaning m bindings (meanings m bindings ops) op] := by
  simp [meanings, List.foldl_append]

theorem length_meanings (m : Metamodel) (bindings : List Binding) (ops : List Op) :
    (meanings m bindings ops).length = ops.length := by
  induction ops using List.reverseRecOn with
  | nil => rfl
  | append_singleton ops op ih => simp [meanings_concat, ih]

/-- Each operation means what it does over the meanings before it. -/
theorem getElem?_meanings (m : Metamodel) (bindings : List Binding) (ops : List Op) (id : Nat) :
    (meanings m bindings ops)[id]? =
      ops[id]?.map (meaning m bindings ((meanings m bindings ops).take id)) := by
  induction ops using List.reverseRecOn with
  | nil => simp [meanings]
  | append_singleton ops op ih =>
    have length := length_meanings m bindings ops
    rw [meanings_concat]
    rcases Nat.lt_trichotomy id ops.length with before | rfl | after
    · rw [List.getElem?_append_left (by omega), List.getElem?_append_left before, ih,
        List.take_append_of_le_length (by omega)]
    · rw [List.getElem?_append_right (by omega), ← length, List.take_left' rfl]
      simp [length]
    · rw [List.getElem?_eq_none (by simp; omega), List.getElem?_eq_none (by simp; omega)]
      rfl

/-- What stands before an operation is also what stands there in the whole trace. -/
theorem exprOf_take {known : List Meaning} {n id : Nat}
    (h : (meaning.exprOf (known.take n) id).isUnsupported = false) :
    meaning.exprOf (known.take n) id = meaning.exprOf known id := by
  unfold meaning.exprOf meaning.meaningOf at *
  rw [List.getElem?_take] at *
  split
  · rfl
  · next after =>
    rw [if_neg after] at h
    cases h

theorem lt_of_supported_take {known : List Meaning} {n id : Nat}
    (h : (meaning.exprOf (known.take n) id).isUnsupported = false) : id < n := by
  by_contra after
  unfold meaning.exprOf meaning.meaningOf at h
  rw [List.getElem?_take, if_neg after] at h
  cases h

theorem supported_of_unsupported? {e : Expr} (h : (expr e).unsupported? = none) :
    e.isUnsupported = false := by
  cases e <;> first | rfl | cases h

end QueryForm

open QueryForm

namespace Trace

variable {m : Metamodel} {t : Trace} {bindings : List Binding}

/-- What each operation of a trace stands for. -/
def reading (t : Trace) (m : Metamodel) (bindings : List Binding) : Nat → Expr :=
  meaning.exprOf (meanings m bindings t.ops)

theorem independentCalls_eq_nil (h : t.externalCalls = []) :
    t.independentCalls = [] := by
  simp [independentCalls, h]

/-- A query form that is an expression is what the result of the trace stands for. -/
theorem queryForm_expr {e : Expr} (h : t.queryForm m bindings = .expr e)
    (supported : e.isUnsupported = false) :
    t.externalCalls = [] ∧ t.reading m bindings t.result = e := by
  unfold queryForm at h
  cases calls : t.externalCalls with
  | cons _ _ =>
    rw [calls] at h
    cases h
    cases supported
  | nil =>
    rw [calls] at h
    dsimp only at h
    split at h <;> cases h
    · next result =>
      refine ⟨rfl, ?_⟩
      rw [reading, meaning.exprOf, meaning.meaningOf, result]
      rfl
    · cases supported
    · cases supported

end Trace
end EntityQuery
