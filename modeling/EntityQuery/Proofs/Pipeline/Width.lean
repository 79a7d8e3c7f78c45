import EntityQuery.Libraries.Plain
import EntityQuery.Proofs.Expr.Components
import EntityQuery.Proofs.Pipeline.Lexing
import EntityQuery.Proofs.Query.Brackets
import EntityQuery.Proofs.QueryForm.Nesting
import EntityQuery.Pipeline.Assembly

/-! The width of rows. The queries that pipelines send close all brackets that they open, and they
select as many columns as the rows have that elements are built from. -/
namespace EntityQuery.Pipeline

variable {α : Type} {p : Pipeline} {m : QueryModel} {f : Lambda} {e : Expr}

/-- A lambda makes a solid expression of a solid element. -/
theorem solid_of_queryForm {clause : Clause} (form : p.queryForm clause f = .ok (.expr e))
    (element : p.model.element.Formed p.metamodel (p.model.sources.map Source.entity))
    (solid : p.model.element.nesting.Solid) : e.nesting.Solid := by
  obtain ⟨t, client, stands, supported⟩ := translation_ok form
  have operands := Lambda.hasOperands_of_extract (Lambda.extract_of_client client)
  have flat : p.model.element.Columnwise (·.isTuple = false) :=
    fun c hc => (element.of_mem_columns hc).2
  exact t.solid_queryForm operands (of_mem_bindings flat) (of_mem_bindings solid) stands supported

theorem Merges.solid (merges : p.Merges m) (sound : p.model.Sound p.metamodel)
    (solid : p.model.element.nesting.Solid) : m.element.nesting.Solid := by
  rcases merges.element with ⟨f, e, form, -, rfl⟩ | ⟨id, entity, pair⟩ | same
  · exact solid_of_queryForm form sound.element solid
  · rw [pair]
    refine Expr.solid_tupleOf nofun (List.forall_mem_cons.2 ⟨solid, ?_⟩)
    exact List.forall_mem_singleton.2 .leaf
  · rwa [same]

theorem Reachable.solid (h : Reachable p) : p.model.element.nesting.Solid := by
  obtain ⟨provider, entity, built⟩ := h
  induction built with
  | refl =>
    unfold Provider.all
    split <;> exact .leaf
  | @tail q p before change solid =>
    have reachable : Reachable q := ⟨provider, entity, before⟩
    rcases change.model_eq with ⟨hints, same⟩ | ⟨-, merges⟩
    · rw [same]
      exact solid
    · exact merges.solid reachable.sound solid

theorem Reachable.queried_aggregateModel {kind : Aggregate} {f : Option Lambda} (h : Reachable p)
    (merged : p.aggregateModel kind f = .ok m) :
    (∀ e ∈ m.exprs, e.Queried p.metamodel (m.sources.map Source.entity)) ∧
      0 < m.rowNesting.width := by
  obtain ⟨argument, aggregable, rfl⟩ := aggregateModel_eq merged
  refine ⟨fun e he => ?_, Nat.one_pos⟩
  rcases QueryModel.mem_exprs_of_aggregated he with rfl | before
  · exact .inr ⟨_, _, _, rfl, h.formed_of_aggregable aggregable⟩
  · exact .inl (h.sound.exprs e before)

theorem Reachable.queried_of_sends {t : Terminal α} (h : Reachable p) (sends : p.Sends t m) :
    (∀ e ∈ m.exprs, e.Queried p.metamodel (m.sources.map Source.entity)) ∧
      0 < m.rowNesting.width := by
  cases sends with
  | own =>
    rw [QueryModel.rowNesting_eq]
    exact ⟨fun e he => .inl (h.sound.exprs e he), h.solid.width_pos⟩
  | aggregate merged => exact h.queried_aggregateModel merged
  | count merged => exact h.queried_aggregateModel merged
  | entities runs streams => exact ⟨List.forall_mem_nil _, Nat.one_pos⟩

/-- However a pipeline was built and whatever is asked of it: each query that it sends, in either
dialect, closes all brackets that it opens, and it selects as many columns, separated by commas
outside of brackets, as the rows have that are accepted for it. -/
theorem columns_of_reachable {t : Terminal α} (h : Reachable p) (sends : p.Sends t m)
    (dialect : Dialect) :
    (∃ commas, Depth.after {} (m.tokens dialect) = some ⟨[], commas⟩) ∧
    ∃ commas, Depth.after {} (selectList (m.tokens dialect)) = some ⟨[], commas⟩ ∧
      commas + 1 = m.rowNesting.width ∧
      ∀ row, (∃ v, m.rowNesting.assemble row = .ok v) ↔ row.length = commas + 1 := by
  obtain ⟨queried, wide⟩ := h.queried_of_sends sends
  have width : m.rowNesting.width - 1 + 1 = m.rowNesting.width := Nat.sub_add_cancel wide
  refine ⟨?_, m.rowNesting.width - 1, ?_, width, fun row => ?_⟩
  · obtain ⟨commas, spans⟩ := QueryModel.balanced_tokens queried dialect
    exact ⟨0 + commas, spans {}⟩
  · have listed := QueryModel.spans_selectList queried dialect {}
    rwa [Depth.count, if_pos rfl, Nat.zero_add] at listed
  · rw [width]
    exact Nesting.assemble_ok_iff

/-- `fun c => (c.name, (c.name + "!", c.name == "ann"))` -/
def greetings : Pipeline :=
  (Provider.all { metamodel := shop } "Customer").select
    (.traced 1 [] (.tuple (.field (.param 0) "name")
      [.tuple (.binary .add (.field (.param 0) "name") (.const (.string "!")))
        [.binary .eq (.field (.param 0) "name") (.const (.string "ann"))]]))

open Libraries.Plain in
/-- A call and a choice among the columns of a tuple in a tuple: the comma of the call is inside. -/
theorem columns_of_greetings :
    greetings.model.text .jpql = "SELECT A.name, CONCAT(A.name, '!'), " ++
      "CASE WHEN A.name = 'ann' THEN TRUE ELSE FALSE END FROM Customer A" ∧
    greetings.model.rowNesting = .group [.leaf, .group [.leaf, .leaf]] ∧
    ∃ commas, Depth.after {} (selectList (greetings.model.tokens .jpql)) = some ⟨[], commas⟩ ∧
      commas + 1 = 3 := by
  have reached : Reachable greetings := ⟨_, _, .tail .refl (.operation (.select _))⟩
  obtain ⟨-, commas, listed, width, -⟩ := columns_of_reachable reached (.own (t := .toList)) .jpql
  exact ⟨by decide +kernel, rfl, commas, listed, width⟩

end EntityQuery.Pipeline
