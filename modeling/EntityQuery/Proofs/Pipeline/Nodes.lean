import EntityQuery.Proofs.Pipeline.Models
import EntityQuery.Proofs.Query.Validity
import EntityQuery.Proofs.QueryForm.Nodes

/-! The nodes of the expressions in a model. What holds of every node but constants, and of the
constants that there can be, holds of all nodes in the model of a pipeline, however it was built. -/
namespace EntityQuery

namespace QueryModel

variable {P : Expr → Prop} {m m' : QueryModel} {e : Expr}

/-- All nodes of a model's expressions have the property. -/
def Throughout (P : Expr → Prop) (m : QueryModel) : Prop := ∀ e ∈ m.exprs, e.Throughout P

theorem Throughout.element (plain : ∀ n : Expr, n.isPlainNode → P n) (h : m.Throughout P) :
    m.element.Throughout P := by
  cases selected : m.projection with
  | some e =>
    rw [QueryModel.element, selected]
    exact h e (mem_exprs.2 (.inr (.inl selected)))
  | none =>
    rw [QueryModel.element, selected]
    exact List.forall_mem_singleton.2 (plain _ rfl)

end QueryModel

namespace Pipeline

variable {P : Expr → Prop} {p : Pipeline} {m : QueryModel}

section Nodes

variable (plain : ∀ n : Expr, n.isPlainNode → P n)
  (constants : ∀ v l, Literal.ofValue? v = some l → P (.constant l))
  (choices : ∀ c a b, P (.conditional c a b))
include plain constants choices

theorem throughout_of_queryForm {f : Lambda} {clause : Clause} {e : Expr}
    (h : p.queryForm clause f = .ok (.expr e)) (element : p.model.element.Throughout P) :
    e.Throughout P := by
  obtain ⟨t, -, form, supported⟩ := translation_ok h
  exact Trace.throughout_queryForm plain constants choices (of_mem_bindings element) form supported

theorem Merges.throughout (merges : p.Merges m) (h : p.model.Throughout P) : m.Throughout P := by
  have element := h.element plain
  cases merges with
  | select form merged =>
    intro e' he'
    rcases QueryModel.forall_exprs_of_select merged e' he' with rfl | before
    · exact throughout_of_queryForm plain constants choices form element
    · exact h e' before
  | filter form merged =>
    have new := throughout_of_queryForm plain constants choices form element
    intro e' he'
    rcases QueryModel.forall_exprs_of_filter merged e' he' with rfl | ⟨old, kept, rfl⟩ | before
    · exact new
    · have left := h old (QueryModel.mem_exprs.2 (.inl kept))
      exact List.forall_mem_cons.2 ⟨plain _ rfl, List.forall_mem_append.2 ⟨left, new⟩⟩
    · exact h e' before
  | sort form merged =>
    intro e' he'
    rcases QueryModel.forall_exprs_of_sort merged e' he' with rfl | before
    · exact throughout_of_queryForm plain constants choices form element
    · exact h e' before
  | @join f source m form merged =>
    intro e' he'
    rcases QueryModel.forall_exprs_of_join merged e' he' with rfl | before
    · refine Expr.throughout_tuple plain (fun c hc => ?_) _
      obtain ⟨part, hpart, hc⟩ := List.mem_flatMap.1 hc
      have parts : ∀ part ∈ [p.model.element, .source p.model.sources.length source.entity],
          part.Throughout P := by
        refine List.forall_mem_cons.2 ⟨element, List.forall_mem_singleton.2 ?_⟩
        exact List.forall_mem_singleton.2 (plain _ rfl)
      exact Expr.throughout_columns (parts part hpart) hc
    · exact h e' before
  | distinct merged =>
    obtain ⟨-, rfl⟩ := QueryModel.dedupe_eq merged
    exact h
  | skip n => exact h
  | limit n => exact h

theorem Reachable.throughout (h : Reachable p) : p.model.Throughout P := by
  obtain ⟨provider, entity, built⟩ := h
  refine built.model (I := QueryModel.Throughout P) ?_ (fun _ _ h => h) ?_
  · unfold Provider.all
    split <;> exact List.forall_mem_nil _
  · exact fun q m _ h merges => merges.throughout plain constants choices h

end Nodes

end Pipeline
end EntityQuery
