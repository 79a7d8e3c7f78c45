import EntityQuery.Proofs.Expr.Tuple

/-! Components of tuples. A tuple keeps its items in two parts, the columns of all of them in one
sequence and the nesting apart, and both still tell the items: each component is the item in its
place, and what is assembled from a row has there what is assembled from the columns of the item. -/
namespace EntityQuery

namespace Nesting

/-- What is assembled from a row is the value with these leaves. -/
theorem assemble_eq_ok_iff {n : Nesting} {row : Row} {v : Value} :
    n.assemble row = .ok v ↔ n.leaves? v = some row := by
  constructor
  · intro h
    unfold assemble at h
    split at h
    · next fits => exact Except.ok.inj h ▸ leaves?_build n row fits
    · cases h
  · intro h
    obtain ⟨fits, built⟩ := build_of_leaves? n v row h
    rw [assemble, if_pos fits, built]

theorem assemble_of_length {n : Nesting} {row : Row} (fits : row.length = n.width) :
    n.assemble row = .ok (n.build row).1 := if_pos fits

theorem assemble_error_iff {n : Nesting} {row : Row} :
    n.assemble row = .error (.rowShape n.width row.length) ↔ row.length ≠ n.width := by
  unfold assemble
  split
  · next fits => simp [fits]
  · next other => simp [other]

theorem assemble_ok_iff {n : Nesting} {row : Row} :
    (∃ v, n.assemble row = .ok v) ↔ row.length = n.width := by
  refine ⟨fun ⟨v, ok⟩ => ?_, fun fits => ⟨_, assemble_of_length fits⟩⟩
  by_contra other
  cases ok.symm.trans (assemble_error_iff.2 other)

end Nesting

namespace Expr

/-- Expressions that are no tuples, and tuples that are put together of such. -/
inductive Built : Expr → Prop
  | single {e : Expr} (single : e.isTuple = false) : Built e
  | tuple {items : List Expr} (items_built : ∀ e ∈ items, Built e) : Built (tupleOf items)

/-- The nesting has a leaf for each column. -/
theorem Built.width_nesting {e : Expr} (h : Built e) : e.nesting.width = e.columns.length := by
  induction h with
  | single single => rw [nesting_eq single, columns_eq single]; rfl
  | tuple _ ih => exact totalWidth_map_nesting ih

/-- What is built is found again among the columns of a tuple. -/
theorem Built.part? {e : Expr} (h : Built e) (before after : List Expr) :
    part? (before ++ e.columns ++ after) before.length e.nesting = some e := by
  cases h with
  | single single => simp [nesting_eq single, columns_eq single, Expr.part?]
  | @tuple items built =>
    have width := totalWidth_map_nesting fun e he => (built e he).width_nesting
    simp only [nesting, columns, tupleOf, Expr.part?, width, List.append_assoc]
    rw [if_pos (by simp), List.drop_left, List.take_left]

variable {items : List Expr} {i : Nat} {e : Expr}

/-- The columns of an item stand between those of the items before and after it. -/
theorem columns_tupleOf (here : items[i]? = some e) :
    (tupleOf items).columns =
      (items.take i).flatMap columns ++ e.columns ++ (items.drop (i + 1)).flatMap columns := by
  obtain ⟨bound, rfl⟩ := List.getElem?_eq_some_iff.1 here
  have split : items = items.take i ++ items[i] :: items.drop (i + 1) := by
    rw [← List.drop_eq_getElem_cons bound, List.take_append_drop]
  rw [tupleOf, columns]
  conv_lhs => rw [split]
  rw [List.flatMap_append, List.flatMap_cons, List.append_assoc]

section Items

variable (built : ∀ e ∈ items, Built e)
include built

/-- The part of a nesting begins where the columns of its item do. -/
theorem offset_eq (i : Nat) : Nesting.totalWidth ((items.map nesting).take i) =
    ((items.take i).flatMap columns).length := by
  rw [← List.map_take]
  exact totalWidth_map_nesting fun e he => (built e (List.mem_of_mem_take he)).width_nesting

theorem element?_tupleOf (i : Nat) : (tupleOf items).element? i = items[i]? := by
  have part : (tupleOf items).element? i =
      (items[i]?.map nesting).bind (part? (items.flatMap columns)
        (Nesting.totalWidth ((items.map nesting).take i))) := by
    rw [← List.getElem?_map]
    rfl
  rw [part, offset_eq built]
  cases here : items[i]? with
  | none => rfl
  | some e =>
    have columns := columns_tupleOf here
    rw [Option.map_some, Option.bind_some]
    exact (congrArg (part? · _ _) columns).trans ((built e (List.mem_of_getElem? here)).part? _ _)

/-- The value of a tuple has in the place of an item what the columns of the item make. -/
theorem assemble_tupleOf (here : items[i]? = some e) {left own right : Row}
    (hLeft : left.length = ((items.take i).flatMap columns).length)
    (hOwn : own.length = e.columns.length)
    (hRight : right.length = ((items.drop (i + 1)).flatMap columns).length) :
    ∃ v w, (tupleOf items).nesting.assemble (left ++ own ++ right) = .ok v ∧
      v.element? i = some w ∧ e.nesting.assemble own = .ok w := by
  have width : own.length = e.nesting.width :=
    hOwn.trans (built e (List.mem_of_getElem? here)).width_nesting.symm
  have long : (left ++ own ++ right).length = (tupleOf items).nesting.width := by
    rw [(Built.tuple built).width_nesting, columns_tupleOf here]
    simp only [List.length_append, hLeft, hOwn, hRight]
  refine ⟨_, _, Nesting.assemble_of_length long, ?_, Nesting.assemble_of_length width⟩
  change ((Nesting.group (items.map nesting)).build _).1.element? i = _
  rw [Nesting.build_group, Value.element?, Nesting.getElem?_buildAll, offset_eq built,
    List.getElem?_map, here, ← hLeft, List.append_assoc, List.drop_left, Option.map_some,
    Option.map_some, Nesting.build_append _ _ _ width]

/-- Flattening, projecting and rebuilding fit together. A component of a tuple is the item in its
place. A row makes a value of a nesting if it has a column for each leaf, and no other value has
these leaves; else its length is reported. And a component of the value of a tuple is the value that
the columns of the component make. -/
theorem components_agree :
    (∀ i, (tupleOf items).element? i = items[i]?) ∧
    (∀ (n : Nesting) (row : Row),
      (n.assemble row = .error (.rowShape n.width row.length) ↔ row.length ≠ n.width) ∧
      (row.length = n.width →
        ∃ v, n.assemble row = .ok v ∧ ∀ w, n.leaves? w = some row ↔ w = v)) ∧
    ∀ i e, (tupleOf items).element? i = some e →
      let before := (items.take i).flatMap columns
      let after := (items.drop (i + 1)).flatMap columns
      (tupleOf items).columns = before ++ e.columns ++ after ∧
      ∀ left own right : Row, left.length = before.length → own.length = e.columns.length →
        right.length = after.length →
        ∃ v w, (tupleOf items).nesting.assemble (left ++ own ++ right) = .ok v ∧
          v.element? i = some w ∧ e.nesting.assemble own = .ok w := by
  refine ⟨element?_tupleOf built, fun n row => ⟨Nesting.assemble_error_iff, fun fits => ?_⟩,
    fun i e component => ?_⟩
  · refine ⟨_, Nesting.assemble_of_length fits, fun w => ?_⟩
    rw [← Nesting.assemble_eq_ok_iff, Nesting.assemble_of_length fits, Except.ok.injEq]
    exact eq_comm
  · rw [element?_tupleOf built] at component
    exact ⟨columns_tupleOf component, fun left own right hLeft hOwn hRight =>
      assemble_tupleOf built component hLeft hOwn hRight⟩

end Items

/-- The pair of a name and of a tuple of nothing. -/
def namePair : Expr :=
  tupleOf [.field (.source 0 "Customer") ["name"] .string, tupleOf []]

/-- In the triple of a customer, such a pair and a number the pair has the second column. -/
theorem components_agree_namePair :
    let items := [.source 0 "Customer", namePair, .constant (.int 1)]
    (∀ e ∈ items, Built e) ∧ (tupleOf items).element? 1 = some namePair ∧
    (tupleOf items).element? 3 = none ∧
    ∃ v w, (tupleOf items).nesting.assemble [.null, .string "Ann", .int 1] = .ok v ∧
      v.element? 1 = some w ∧ namePair.nesting.assemble [.string "Ann"] = .ok w := by
  intro items
  have nothing : Built (tupleOf []) := .tuple (List.forall_mem_nil _)
  have pair : Built namePair :=
    .tuple (List.forall_mem_cons.2 ⟨.single rfl, List.forall_mem_singleton.2 nothing⟩)
  have built : ∀ e ∈ items, Built e := List.forall_mem_cons.2
    ⟨.single rfl, List.forall_mem_cons.2 ⟨pair, List.forall_mem_singleton.2 (.single rfl)⟩⟩
  obtain ⟨component, -, agree⟩ := components_agree built
  exact ⟨built, component 1, component 3,
    (agree 1 namePair (component 1)).2 [.null] [.string "Ann"] [.int 1] rfl rfl rfl⟩

end Expr
end EntityQuery
