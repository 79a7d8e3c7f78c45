import EntityQuery.Libraries.Plain
import EntityQuery.Proofs.Pipeline.Determination
import EntityQuery.Proofs.Pipeline.Navigation

/-! Collections among the columns of a projection. A projection as a whole is single-valued, but a
tuple hides what its columns are: a collection that a lambda puts into one becomes a column. -/
namespace EntityQuery

theorem Literal.type_ne_collection (l : Literal) (entity : String) :
    l.type ≠ .collection entity := by
  cases l <;> simp [type]

theorem Expr.type_ne_collection_of_isPlain {e : Expr} (h : QueryModel.isPlain e) (entity : String) :
    e.type ≠ .collection entity := by
  cases e with
  | constant l => exact l.type_ne_collection entity
  | parameter name v =>
    rw [type]
    cases Literal.ofValue? v with
    | none => simp
    | some l => exact l.type_ne_collection entity
  | _ => cases h

/-- A collection is refused where it is all that is selected. -/
theorem QueryModel.select_single {m m' : QueryModel} {e : Expr} (h : m.select e = .ok m')
    (entity : String) : e.type ≠ .collection entity := by
  intro collection
  obtain ⟨_, -, h⟩ := bind_ok_iff.1 h
  obtain ⟨_, -, h⟩ := bind_ok_iff.1 h
  rw [collection] at h
  dsimp only at h
  split at h
  · next plain => exact Expr.type_ne_collection_of_isPlain plain entity collection
  · cases h

/-- What is of no collection type has collections among its columns only if it is a tuple. -/
theorem Expr.isTuple_of_collection {e c : Expr} {entity : String}
    (single : e.type ≠ .collection entity) (hc : c ∈ e.columns)
    (collection : c.type = .collection entity) : e.isTuple := by
  cases plain : e.isTuple with
  | true => rfl
  | false =>
    rw [columns_eq plain, List.mem_singleton] at hc
    exact absurd (hc ▸ collection) single

namespace Pipeline

variable {p p' q : Pipeline} {f : Lambda}

theorem select_merged (merged : (p.select f).Merged) :
    ∃ e, p.queryForm .select f = .ok (.expr e) ∧ (p.select f).model.element = e ∧
      ∀ entity, e.type ≠ .collection entity := by
  obtain ⟨-, form, model, hform, hmodel, heq⟩ := addLambda_merged merged
  obtain ⟨e, he, hmodel⟩ := bind_ok_iff.1 hmodel
  obtain rfl := expression_ok he
  refine ⟨e, hform, ?_, QueryModel.select_single hmodel⟩
  obtain ⟨-, rfl⟩ := QueryModel.select_eq hmodel
  rw [select, heq]
  rfl

/-- A select that merges, or any other change. -/
theorem Change.selects_or_unselected (change : Change p p') :
    (∃ f, p' = p.select f ∧ p'.Merged) ∨ Unselected p p' := by
  cases change with
  | hint accepted => exact .inr (.hint accepted)
  | operation op =>
    by_cases merged : (p.apply op).Merged
    · cases op with
      | select f => exact .inl ⟨f, rfl, merged⟩
      | _ => exact .inr (.operation _ (.inl nofun))
    · exact .inr (.operation op (.inr merged))

/-- The change by which a projection came about: a select, or the creation of the pipeline. -/
theorem Reachable.last_select (h : Reachable p) :
    (∃ q f, Reachable q ∧ (q.select f).Merged ∧
      Relation.ReflTransGen Unselected (q.select f) p) ∨
    ∃ (provider : Provider) (entity : String),
      Relation.ReflTransGen Unselected (provider.all entity) p := by
  obtain ⟨provider, entity, built⟩ := h
  induction built with
  | refl => exact .inr ⟨provider, entity, .refl⟩
  | @tail q p before change ih =>
    rcases change.selects_or_unselected with ⟨f, rfl, merged⟩ | unselected
    · exact .inl ⟨q, f, ⟨provider, entity, before⟩, merged, .refl⟩
    · refine ih.imp ?_ ?_
      · rintro ⟨q, f, reachable, merged, later⟩
        exact ⟨q, f, reachable, merged, later.tail unselected⟩
      · rintro ⟨provider, entity, later⟩
        exact ⟨provider, entity, later.tail unselected⟩

/-- Other changes than merged selects add sources to the columns and no collections. -/
theorem Refines.mem_columns_iff (refines : Refines q p) {c : Expr} {entity : String}
    (collection : c.type = .collection entity) :
    c ∈ p.model.element.columns ↔ c ∈ q.model.element.columns := by
  obtain ⟨joined, columns, sources⟩ := refines.columns
  rw [columns, List.mem_append, or_iff_left]
  intro hc
  obtain ⟨id, entity', rfl⟩ := sources c hc
  cases collection

theorem element_all (provider : Provider) (entity : String) :
    (provider.all entity).model.element = .source 0 entity := by
  unfold Provider.all
  split <;> rfl

/-- A projection is never of a collection type as a whole. -/
theorem Reachable.element_single (h : Reachable p) (entity : String) :
    p.model.element.type ≠ .collection entity := by
  obtain ⟨provider, root, built⟩ := h
  refine built.model (I := fun m => m.element.type ≠ .collection entity) ?_ ?_ ?_
  · rw [element_all]
    nofun
  · exact fun _ _ single => single
  · intro q m _ single merges
    rcases merges.element with ⟨f, e, -, merged, rfl⟩ | ⟨id, other, pair⟩ | same
    · exact QueryModel.select_single merged entity
    · rw [pair]
      nofun
    · rwa [same]

/-- Each column of a tuple that is selected is one of the element, or the lambda makes a tuple with
it. -/
theorem exists_of_selected {e c : Expr} (form : p.queryForm .select f = .ok (.expr e))
    (element : p.model.element.Formed p.metamodel (p.model.sources.map Source.entity))
    (tuple : e.isTuple) (hc : c ∈ e.columns) :
    c ∈ p.model.element.columns ∨ ∃ t items, f.client = .ok (.traced t) ∧ Op.tuple items ∈ t.ops ∧
      ∃ i ∈ items, t.reading p.metamodel [.element p.model.element] i = c := by
  obtain ⟨t, client, stands, supported⟩ := translation_ok form
  have one : p.bindings (expectedArity .select f) = [.element p.model.element] := by
    simp [bindings, expectedArity]
  rw [one] at stands
  have flat (b : Expr) (hb : Binding.element b ∈ [.element p.model.element]) :
      b.Columnwise (·.isTuple = false) := by
    cases List.mem_singleton.1 hb
    exact fun c hc => (element.of_mem_columns hc).2
  rcases t.exists_of_mem_columns flat stands supported tuple hc with
    ⟨b, hb, hc⟩ | ⟨items, hop, i, hi, same⟩
  · cases List.mem_singleton.1 hb
    exact .inl hc
  · exact .inr ⟨t, items, client, hop, i, hi, same⟩

/-- Where the collections among the columns come from: a lambda of a select made a tuple with it. -/
theorem Reachable.exists_of_collection (h : Reachable p) {c : Expr} {entity : String}
    (hc : c ∈ p.model.element.columns) (collection : c.type = .collection entity) :
    ∃ q f t items i, Reachable q ∧ (q.select f).Merged ∧ Becomes (q.select f) p ∧
      f.client = .ok (.traced t) ∧ Op.tuple items ∈ t.ops ∧ i ∈ items ∧
      t.reading q.metamodel [.element q.model.element] i = c := by
  obtain ⟨provider, root, built⟩ := h
  induction built with
  | refl =>
    rw [element_all] at hc
    cases List.mem_singleton.1 hc
    cases collection
  | @tail q p before change ih =>
    have reachable : Reachable q := ⟨provider, root, before⟩
    have earlier (hc : c ∈ q.model.element.columns) :
        ∃ q f t items i, Reachable q ∧ (q.select f).Merged ∧ Becomes (q.select f) p ∧
          f.client = .ok (.traced t) ∧ Op.tuple items ∈ t.ops ∧ i ∈ items ∧
          t.reading q.metamodel [.element q.model.element] i = c := by
      obtain ⟨q, f, t, items, i, reachable, merged, later, made⟩ := ih hc
      exact ⟨q, f, t, items, i, reachable, merged, later.tail change, made⟩
    rcases change.selects_or_unselected with ⟨f, rfl, merged⟩ | unselected
    · obtain ⟨e, form, rfl, single⟩ := select_merged merged
      have tuple := Expr.isTuple_of_collection (single entity) hc collection
      rcases exists_of_selected form reachable.sound.element tuple hc with
        hc | ⟨t, items, client, hop, i, hi, same⟩
      · exact earlier hc
      · exact ⟨q, f, t, items, i, reachable, merged, .refl, client, hop, hi, same⟩
    · exact earlier ((unselected.refines.mem_columns_iff collection).1 hc)

/-- A projection as a whole is single-valued. Collections are among its columns exactly if the last
select that merged made a tuple with collections among its columns, and a collection that is there
was put into a tuple by the lambda of some select that merged. -/
theorem collection_columns_iff (h : Reachable p) :
    (∀ entity, p.model.element.type ≠ .collection entity) ∧
    ((∃ c ∈ p.model.element.columns, ∃ entity, c.type = .collection entity) ↔
      ∃ q f e, Reachable q ∧ q.queryForm .select f = .ok (.expr e) ∧ (q.select f).Merged ∧
        Relation.ReflTransGen Unselected (q.select f) p ∧
        e.isTuple ∧ ∃ c ∈ e.columns, ∃ entity, c.type = .collection entity) ∧
    ∀ c ∈ p.model.element.columns, ∀ entity, c.type = .collection entity →
      ∃ q f t items i, Reachable q ∧ (q.select f).Merged ∧ Becomes (q.select f) p ∧
        f.client = .ok (.traced t) ∧ Op.tuple items ∈ t.ops ∧ i ∈ items ∧
        t.reading q.metamodel [.element q.model.element] i = c := by
  refine ⟨h.element_single, ⟨?_, ?_⟩, fun c hc entity => h.exists_of_collection hc⟩
  · rintro ⟨c, hc, entity, collection⟩
    rcases h.last_select with ⟨q, f, reachable, merged, later⟩ | ⟨provider, root, later⟩
    · obtain ⟨e, form, rfl, single⟩ := select_merged merged
      rw [(refines_of_unselected later).mem_columns_iff collection] at hc
      have tuple := Expr.isTuple_of_collection (single entity) hc collection
      exact ⟨q, f, _, reachable, form, merged, later, tuple, c, hc, entity, collection⟩
    · rw [(refines_of_unselected later).mem_columns_iff collection, element_all] at hc
      cases List.mem_singleton.1 hc
      cases collection
  · rintro ⟨q, f, e, -, form, merged, later, -, c, hc, entity, collection⟩
    obtain ⟨e', form', element, -⟩ := select_merged merged
    obtain rfl : e = e' := QueryForm.expr.inj (Except.ok.inj (form.symm.trans form'))
    refine ⟨c, ?_, entity, collection⟩
    rwa [(refines_of_unselected later).mem_columns_iff collection, element]

/-- `fun c => (c.name, c.orders)` -/
def nameAndOrders : Lambda :=
  .traced 1 [] (.tuple (.field (.param 0) "name") [.field (.param 0) "orders"])

/-- The names of customers with their orders. -/
def ordersByName : Pipeline :=
  (Provider.all { metamodel := shop } "Customer").select nameAndOrders

def customerOrders : Expr := .field (.source 0 "Customer") ["orders"] (.collection "Order")

theorem ordersByName_reachable : Reachable ordersByName :=
  ⟨_, _, .tail .refl (.operation (.select nameAndOrders))⟩

/-- The orders stay a column when duplicates are dropped, as the select was the last one. -/
theorem collection_columns_distinct :
    Reachable ordersByName.distinct ∧
    (∀ entity, ordersByName.distinct.model.element.type ≠ .collection entity) ∧
    ∃ c ∈ ordersByName.distinct.model.element.columns, ∃ entity, c.type = .collection entity := by
  obtain ⟨provider, entity, built⟩ := ordersByName_reachable
  have reachable : Reachable ordersByName.distinct :=
    ⟨provider, entity, .tail built (.operation .distinct)⟩
  obtain ⟨single, columns, -⟩ := collection_columns_iff reachable
  refine ⟨reachable, single, columns.2 ?_⟩
  exact ⟨Provider.all { metamodel := shop } "Customer", nameAndOrders,
    .tupleOf [.field (.source 0 "Customer") ["name"] .string, customerOrders], ⟨_, _, .refl⟩, rfl,
    ⟨rfl, rfl⟩, .single (.operation .distinct (.inl nofun)), rfl, customerOrders,
    List.mem_cons_of_mem _ List.mem_cons_self, "Order", rfl⟩

open Libraries.Plain in
/-- In a pair the orders of a customer are a column, though alone they are refused. -/
theorem collection_column_ordersByName :
    Reachable ordersByName ∧ ordersByName.Merged ∧
    ordersByName.model.text .jpql = "SELECT A.name, A.orders FROM Customer A" ∧
    (¬∀ c ∈ ordersByName.model.element.columns, ∀ entity, c.type ≠ .collection entity) ∧
    (Provider.all { metamodel := shop } "Customer").model.select customerOrders =
      .error (.type .select .singleValued (.collection "Order")) := by
  refine ⟨ordersByName_reachable, ⟨rfl, rfl⟩, by decide +kernel, fun single => ?_, rfl⟩
  exact single customerOrders (List.mem_cons_of_mem _ List.mem_cons_self) "Order" rfl

end Pipeline
end EntityQuery
