import EntityQuery.Libraries.Plain
import EntityQuery.Proofs.Pipeline.Aggregation
import EntityQuery.Proofs.QueryForm.Columns

/-! What the columns of an element determine. A lambda makes of an element nothing that its columns
do not determine, and besides selects every clause keeps those columns. So rows with one element
agree on every key that was sorted by after the last select; a select may drop the columns that an
earlier key was read from. -/
namespace EntityQuery

namespace Expr

variable {row row' : SourceRow} {e : Expr}

/-- A column that does not tell the rows apart. -/
def AgreesOn (row row' : SourceRow) (c : Expr) : Prop :=
  c.isTuple = false ∧ c.value row = c.value row'

theorem value_navigate_eq (e : Expr) (name : String) (type : ExprType) (row : SourceRow) :
    (e.navigate name type).value row = e.value row >>= fun v => readPath v [name] := by
  cases e with
  | field base path type' =>
    rw [navigate, value, value, bind_assoc]
    exact congrArg _ (funext fun v => List.foldlM_append)
  | _ => rfl

/-- A node has one value where its operands have. -/
theorem Over.value_eq {operands : List Expr} (h : e.Over operands)
    (each : ∀ o ∈ operands, o.value row = o.value row') : e.value row = e.value row' := by
  cases h with
  | navigate base name type =>
    rw [value_navigate_eq, value_navigate_eq, each base List.mem_cons_self]
  | apply fn => rw [value, value, values_congr each]
  | unary op operand => rw [value, value, each operand List.mem_cons_self]
  | binary op l r =>
    simp only [List.forall_mem_cons] at each
    rw [value, value, each.1, each.2.1]
  | conditional c a b =>
    simp only [List.forall_mem_cons] at each
    rw [value, value, each.1, each.2.1, each.2.2.1]

theorem value_eq_of_columns (h : e.Columnwise (AgreesOn row row')) : e.value row = e.value row' := by
  cases e with
  | tuple es n =>
    have columns : values row es = values row' es := values_congr fun c hc => (h c hc).2
    rw [value, value, columns]
  | _ => exact (h _ List.mem_cons_self).2

theorem inherited_agreesOn : Inherited (AgreesOn row row') where
  single _ h := h.1
  operandFree e h := by cases e <;> first | exact ⟨rfl, rfl⟩ | cases h
  node h each := ⟨h.isTuple, h.value_eq fun o ho => value_eq_of_columns (each o ho)⟩

theorem value_eq_of_values {es : List Expr} {vs : List Value} (h : values row es = .ok vs)
    (h' : values row' es = .ok vs) : ∀ c ∈ es, c.value row = c.value row' := by
  induction es generalizing vs with
  | nil => exact List.forall_mem_nil _
  | cons e es ih =>
    obtain ⟨w, ws, hw, hws, rfl⟩ := values_cons.1 h
    obtain ⟨w', ws', hw', hws', same⟩ := values_cons.1 h'
    obtain ⟨rfl, rfl⟩ := List.cons.inj same
    exact List.forall_mem_cons.2 ⟨hw.trans hw'.symm, ih hws hws'⟩

/-- Rows with one value of a formed expression agree on its columns. -/
theorem Formed.agreesOn {m : Metamodel} {sources : List String} {v : Value}
    (formed : e.Formed m sources) (h : e.value row = .ok v) (h' : e.value row' = .ok v) :
    e.Columnwise (AgreesOn row row') := by
  obtain ⟨cols, hcols, hv⟩ := e.value_eq_build.1 h
  obtain ⟨cols', hcols', hv'⟩ := e.value_eq_build.1 h'
  have width {cols : List Value} {row : SourceRow} (h : values row e.columns = .ok cols) :
      cols.length = e.nesting.width := by
    rw [length_of_values h, formed.width_nesting]
  obtain rfl := Nesting.build_injective e.nesting cols cols' (width hcols) (width hcols')
    (hv.trans hv'.symm)
  exact fun c hc => ⟨(formed.of_mem_columns hc).2, value_eq_of_values hcols hcols' c hc⟩

end Expr

namespace QueryModel

/-- Rows that agree on the columns of the element agree on the expression. -/
def Settles (m : QueryModel) (e : Expr) : Prop :=
  ∀ row row', m.element.Columnwise (Expr.AgreesOn row row') → e.value row = e.value row'

end QueryModel

namespace Pipeline

variable {p p' q : Pipeline} {f : Lambda} {e : Expr}

theorem settles_of_queryForm {clause : Clause} (h : p.queryForm clause f = .ok (.expr e)) :
    p.model.Settles e := by
  obtain ⟨t, -, form, supported⟩ := translation_ok h
  intro row row' agrees
  have columns := t.columnwise_queryForm Expr.inherited_agreesOn (of_mem_bindings agrees) form
    supported
  exact Expr.value_eq_of_columns columns

/-- The second pipeline's element has the columns of the first one's and sources after them, and it
settles the keys that were added in between. -/
structure Refines (p p' : Pipeline) : Prop where
  columns : ∃ joined, p'.model.element.columns = p.model.element.columns ++ joined ∧
    ∀ c ∈ joined, ∃ id entity, c = .source id entity
  keys : ∃ newer, p'.model.ordering = newer ++ p.model.ordering ∧
    ∀ key ∈ newer, p'.model.Settles key.expr

theorem Refines.settled (h : Refines p p') (settles : p.model.Settles e) : p'.model.Settles e := by
  obtain ⟨joined, columns, -⟩ := h.columns
  exact fun row row' agrees =>
    settles row row' fun c hc => agrees c (columns ▸ List.mem_append_left _ hc)

theorem Refines.trans {p'' : Pipeline} (h : Refines p p') (h' : Refines p' p'') :
    Refines p p'' := by
  obtain ⟨joined, columns, sources⟩ := h.columns
  obtain ⟨joined', columns', sources'⟩ := h'.columns
  obtain ⟨newer, added, settles⟩ := h.keys
  obtain ⟨newer', added', settles'⟩ := h'.keys
  refine ⟨⟨joined ++ joined', ?_, ?_⟩, newer' ++ newer, ?_, ?_⟩
  · rw [columns', columns, List.append_assoc]
  · exact List.forall_mem_append.2 ⟨sources, sources'⟩
  · rw [added', added, List.append_assoc]
  · exact List.forall_mem_append.2 ⟨settles', fun key hkey => h'.settled (settles key hkey)⟩

/-- Where element and keys stay nothing changes. -/
theorem Refines.of_same (element : p'.model.element = p.model.element)
    (ordering : p'.model.ordering = p.model.ordering) : Refines p p' := by
  refine ⟨⟨[], ?_, List.forall_mem_nil _⟩, [], ordering, List.forall_mem_nil _⟩
  rw [element, List.append_nil]

theorem Refines.refl (p : Pipeline) : Refines p p := .of_same rfl rfl

/-- Only what merges changes the model, hints apart. -/
theorem Effect.model_of_not_merged (effect : Effect p p') (apart : ¬p'.Merged) :
    p'.model = { p.model with hints := p'.model.hints } := by
  cases effect with
  | merges model good merging => exact absurd ⟨merging, good⟩ apart
  | _ => rfl

/-- Besides selects, operations that merge keep the columns of the element, and they sort by what
these determine. -/
theorem refines_apply {op : Operation} (other : ∀ f, op ≠ .select f) (merged : (p.apply op).Merged) :
    Refines p (p.apply op) := by
  cases op with
  | select f => exact absurd rfl (other f)
  | filter f =>
    obtain ⟨-, form, model, -, hmodel, heq⟩ := addLambda_merged merged
    obtain ⟨e, -, hmodel⟩ := bind_ok_iff.1 hmodel
    obtain ⟨-, rfl⟩ := QueryModel.filter_eq hmodel
    rw [apply, filter, heq]
    exact .of_same rfl rfl
  | join f =>
    obtain ⟨-, form, model, -, hmodel, heq⟩ := addLambda_merged merged
    obtain ⟨found, -, hmodel⟩ := bind_ok_iff.1 hmodel
    obtain ⟨-, -, -, rfl⟩ := QueryModel.join_eq hmodel
    rw [apply, join, heq]
    refine ⟨⟨[.source p.model.sources.length found.entity], ?_, ?_⟩, [], rfl, ?_⟩
    · exact List.flatMap_cons
    · exact List.forall_mem_singleton.2 ⟨_, _, rfl⟩
    · exact List.forall_mem_nil _
  | sort f direction =>
    obtain ⟨-, form, model, hform, hmodel, heq⟩ := addLambda_merged merged
    obtain ⟨e, he, hmodel⟩ := bind_ok_iff.1 hmodel
    obtain rfl := expression_ok he
    obtain ⟨-, rfl⟩ := QueryModel.sort_eq hmodel
    have settles : p.model.Settles e := settles_of_queryForm hform
    rw [apply, sort, heq]
    refine ⟨⟨[], (List.append_nil _).symm, List.forall_mem_nil _⟩, [⟨e, direction⟩], rfl, ?_⟩
    exact List.forall_mem_singleton.2 settles
  | distinct =>
    obtain ⟨-, model, hmodel, heq⟩ := addPlain_merged merged
    obtain ⟨-, rfl⟩ := QueryModel.dedupe_eq hmodel
    rw [apply, distinct, heq]
    exact .of_same rfl rfl
  | skip n =>
    obtain ⟨-, model, hmodel, heq⟩ := addPlain_merged merged
    obtain rfl := Except.ok.inj hmodel
    rw [apply, skip, heq]
    exact .of_same rfl rfl
  | limit n =>
    obtain ⟨-, model, hmodel, heq⟩ := addPlain_merged merged
    obtain rfl := Except.ok.inj hmodel
    rw [apply, limit, heq]
    exact .of_same rfl rfl

/-- Changes other than selects that merge. -/
inductive Unselected (p : Pipeline) : Pipeline → Prop
  | operation (op : Operation) (other : (∀ f, op ≠ .select f) ∨ ¬(p.apply op).Merged) :
    Unselected p (p.apply op)
  | hint {name : String} {value : Value} {p' : Pipeline} (accepted : p.setHint name value = .ok p') :
    Unselected p p'

theorem Unselected.refines (h : Unselected p p') : Refines p p' := by
  cases h with
  | hint accepted =>
    obtain ⟨hints, -, rfl, -⟩ := setHint_eq accepted
    exact .of_same rfl rfl
  | operation op other =>
    by_cases merged : (p.apply op).Merged
    · exact refines_apply (other.resolve_right (not_not_intro merged)) merged
    · have same := (effect_apply op).model_of_not_merged merged
      refine .of_same ?_ ?_
      · rw [same]
        rfl
      · rw [same]

theorem Unselected.change (h : Unselected p p') : Change p p' := by
  cases h with
  | operation op => exact .operation op
  | hint accepted => exact .hint accepted

theorem becomes_of_unselected (later : Relation.ReflTransGen Unselected q p) : Becomes q p := by
  induction later with
  | refl => exact .refl
  | tail _ unselected ih => exact .tail ih unselected.change

theorem refines_of_unselected (later : Relation.ReflTransGen Unselected q p) : Refines q p := by
  induction later with
  | refl => exact .refl q
  | tail _ unselected ih => exact ih.trans unselected.refines

/-- Keys that were merged after the last merged select are determined by the element: rows of which
the query makes one element agree on them. -/
theorem ordering_determined (reachable : Reachable q)
    (later : Relation.ReflTransGen Unselected q p) :
    ∃ newer, p.model.ordering = newer ++ q.model.ordering ∧
      ∀ key ∈ newer, ∀ row row' v, p.model.item row = .ok v → p.model.item row' = .ok v →
        key.expr.value row = key.expr.value row' := by
  have formed : p.model.element.Formed p.metamodel (p.model.sources.map Source.entity) := by
    obtain ⟨provider, entity, built⟩ := reachable
    have rooted : Rooted p :=
      Reachable.rooted ⟨provider, entity, built.trans (becomes_of_unselected later)⟩
    exact rooted.element
  obtain ⟨newer, added, settles⟩ := (refines_of_unselected later).keys
  refine ⟨newer, added, fun key hkey row row' v h h' => settles key hkey row row' ?_⟩
  exact formed.agreesOn ((QueryModel.item_eq formed).1 h) ((QueryModel.item_eq formed).1 h')

/-- `fun c => c.vip` -/
def favoured : Lambda := .traced 1 [] (.field (.param 0) "vip")

/-- `fun x => x` -/
def unchanged : Lambda := .traced 1 [] (.param 0)

/-- Of customers in the order of their debts, whether they are favoured. -/
def favours : Pipeline := (customers.sort owed .ascending).select favoured

theorem favours_reachable : Reachable favours :=
  ⟨_, _, .tail (.tail .refl (.operation (.sort owed .ascending))) (.operation (.select favoured))⟩

/-- Sorted again, favours are sorted by what they are, and only then by debts. -/
theorem ordering_determined_favours :
    let p := (favours.sort unchanged .descending).distinct
    p.model.distinct = true ∧
    ∃ newest, p.model.ordering = newest :: favours.model.ordering ∧
      ∀ row row' v, p.model.item row = .ok v → p.model.item row' = .ok v →
        newest.expr.value row = newest.expr.value row' := by
  have later : Relation.ReflTransGen Unselected favours
      ((favours.sort unchanged .descending).distinct) :=
    .tail (.tail .refl (.operation (.sort unchanged .descending) (.inl nofun)))
      (.operation .distinct (.inl nofun))
  obtain ⟨newer, added, determined⟩ := ordering_determined favours_reachable later
  refine ⟨rfl, ⟨favours.model.element, .descending⟩, rfl, determined _ ?_⟩
  obtain rfl : [⟨favours.model.element, .descending⟩] = newer := List.append_cancel_right added
  exact List.mem_cons_self

open Libraries.Plain in
/-- The debts are not determined by whether a customer is favoured. -/
theorem ordering_undetermined :
    Reachable favours.distinct ∧ favours.distinct.model.distinct = true ∧
    favours.distinct.model.text .jpql =
      "SELECT DISTINCT A.vip FROM Customer A ORDER BY A.debt ASC" ∧
    ∃ (db : Database) (row row' : SourceRow) (v : Value) (key : OrderKey),
      row ∈ favours.distinct.model.kept db ∧ row' ∈ favours.distinct.model.kept db ∧
      favours.distinct.model.item row = .ok v ∧ favours.distinct.model.item row' = .ok v ∧
      key ∈ favours.distinct.model.ordering ∧
      key.expr.value row = .ok (.int 0) ∧ key.expr.value row' = .ok (.int 1) := by
  refine ⟨?_, rfl, by decide +kernel, fun _ => [customerOwing 0 true, customerOwing 1 true],
    [customerOwing 0 true], [customerOwing 1 true], .bool true,
    ⟨.field (.source 0 "Customer") ["debt"] .numeric, .ascending⟩, ?_, ?_, rfl, rfl, ?_, rfl, rfl⟩
  · obtain ⟨provider, entity, built⟩ := favours_reachable
    exact ⟨provider, entity, .tail built (.operation .distinct)⟩
  · exact List.mem_cons_self
  · exact List.mem_cons_of_mem _ List.mem_cons_self
  · exact List.mem_cons_self

end Pipeline
end EntityQuery
