import EntityQuery.Proofs.Expr.Typing
import EntityQuery.Proofs.QueryForm.Nodes

/-! Interpretation makes no conditional with disagreeing arms where the branches of the trace and
the conditionals of the bindings have agreeing ones. -/
namespace EntityQuery

/-- The arms of each branch stand for expressions whose types agree. -/
def Trace.BranchesAgree (t : Trace) (m : Metamodel) (bindings : List Binding) : Prop :=
  ∀ c a b, Op.branch c a b ∈ t.ops → (typeOf a).agrees (typeOf b)
where
  typeOf (id : Nat) : ExprType :=
    (QueryForm.meaning.exprOf (QueryForm.meanings m bindings t.ops) id).type

namespace Expr

variable {e : Expr}

theorem allArmsAgree_leaf (only : e.nodes = [e]) (h : e.armsAgree) : e.AllArmsAgree := by
  intro n hn
  rw [only, List.mem_singleton] at hn
  exact hn ▸ h

theorem armsAgree_of_isPlainNode (h : e.isPlainNode) : e.armsAgree := by
  cases e with
  | conditional c a b => cases h
  | _ => rfl

theorem allArmsAgree_of_isUnsupported (h : e.isUnsupported) : e.AllArmsAgree := by
  cases e with
  | unsupported reason => exact allArmsAgree_leaf rfl rfl
  | _ => cases h

end Expr

/-- A branch is the only operation that needs agreeing arms. -/
theorem Trace.reading_armsAgree {m : Metamodel} {t : Trace} {bindings : List Binding}
    (hb : ∀ e, Binding.element e ∈ bindings → e.AllArmsAgree)
    (branches : t.BranchesAgree m bindings) (id : Nat) :
    (t.reading m bindings id).AllArmsAgree := by
  cases supported : (t.reading m bindings id).isUnsupported with
  | true => exact Expr.allArmsAgree_of_isUnsupported supported
  | false =>
    refine Trace.throughout_reading hb (fun op hop e _ made => ?_) supported
    refine made.of_plain (fun _ => Expr.armsAgree_of_isPlainNode) (fun _ _ _ => rfl) ?_ hb
    rintro c a b rfl
    exact branches c a b hop

end EntityQuery
