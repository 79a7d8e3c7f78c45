import EntityQuery.Proofs.Query.Merging
import EntityQuery.Proofs.Value.Aggregation

/-! Models of one aggregate. A data engine takes the aggregate of a column over the rows that are
kept. What a stream asks for is taken from the same rows, so a column has the values that are folded
on the client, save for the nulls that a count of distinct elements passes over. -/
namespace EntityQuery.QueryModel

/-- What a data engine answers a model of one aggregate. -/
inductive Answers (m : QueryModel) (db : Database) (v : Value) : Prop
  | intro {kind : Aggregate} {argument : Expr} {distinct : Bool} {column : List Value}
    (aggregates : m.projection = some (.aggregate kind argument distinct))
    (whole : m.window.isUnbounded)
    (values : List.Forall₂ (fun row w => argument.value row = .ok w) (m.kept db) column)
    (answers : kind.Answers (Aggregate.regarded distinct column) v)

/-- A model counts distinct values and one of them is null. -/
def CountsNull (m : QueryModel) (db : Database) : Prop :=
  ∃ argument, m.projection = some (.aggregate .count argument true) ∧
    ∃ row ∈ m.kept db, argument.value row = .ok .null

/-- The model of one aggregate over the rows of a model. -/
def aggregated (m : QueryModel) (kind : Aggregate) (argument : Expr) : QueryModel :=
  { m with
    projection := some (.aggregate kind argument m.distinct)
    ordering := []
    distinct := false }

variable {m m' : QueryModel} {kind : Aggregate} {e argument : Expr} {db : Database}
  {l : List Value} {v : Value}

/-- What a merged aggregate found. Of distinct elements only the element itself is aggregated. -/
theorem aggregate_eq {given : Option Expr} (h : m.aggregate kind given = .ok m') :
    m.window.isUnbounded ∧ (m.distinct → ∀ e ∈ given, e == m.element) ∧
      ∃ argument, argument.type.isPlural = false ∧ m' = m.aggregated kind argument ∧
        (given.elim (m.aggregateArgument kind) .ok) = .ok argument := by
  obtain ⟨_, unbounded, h⟩ := bind_ok_iff.1 h
  refine ⟨refuseWindow_ok unbounded, ?_⟩
  dsimp only at h
  split at h
  · cases h
  next own =>
  have checked {argument : Expr} {e : MergeError} (h : (if argument.type.isPlural then .error e
      else .ok (m.aggregated kind argument)) = Except.ok m') :
      argument.type.isPlural = false ∧ m' = m.aggregated kind argument := by
    split at h
    · cases h
    · next single => exact ⟨by simpa using single, (Except.ok.inj h).symm⟩
  cases given with
  | none =>
    obtain ⟨argument, hargument, h⟩ := bind_ok_iff.1 h
    obtain ⟨_, -, h⟩ := bind_ok_iff.1 h
    split at h
    · cases h
    · exact ⟨by simp, argument, (checked h).1, (checked h).2, hargument⟩
  | some e =>
    obtain ⟨argument, hargument, h⟩ := bind_ok_iff.1 h
    obtain rfl : e = argument := Except.ok.inj hargument
    obtain ⟨_, -, h⟩ := bind_ok_iff.1 h
    split at h
    · cases h
    · refine ⟨fun single _ he => ?_, e, (checked h).1, (checked h).2, rfl⟩
      obtain rfl := Option.mem_some.1 he
      simpa [single, bne] using own

theorem CountsNull.aggregated (h : (m.aggregated kind argument).CountsNull db) :
    kind = .count ∧ m.distinct = true := by
  obtain ⟨_, aggregates, -⟩ := h
  obtain ⟨rfl, -, single⟩ := Expr.aggregate.inj (Option.some.inj aggregates)
  exact ⟨rfl, single⟩

/-- The answers that there can be are those on the values of the argument. -/
theorem answers_aggregated (unbounded : m.window.isUnbounded)
    (whole : ∀ row ∈ m.kept db, argument.value row = .ok (argument.valueOn row)) :
    (m.aggregated kind argument).Answers db v ↔
      kind.Answers (Aggregate.regarded m.distinct ((m.kept db).map argument.valueOn)) v := by
  have column {column : List Value} :
      List.Forall₂ (fun row w => argument.value row = .ok w) (m.kept db) column ↔
        column = (m.kept db).map argument.valueOn := by
    constructor
    · intro h
      have read := List.forall₂_map_left_iff.2 (h.imp fun _ _ => Expr.valueOn_eq)
      rw [List.forall₂_eq_eq_eq] at read
      exact read.symm
    · rintro rfl
      exact List.forall₂_map_right_iff.2 (List.forall₂_same.2 whole)
  constructor
  · rintro ⟨aggregates, -, values, answers⟩
    obtain ⟨rfl, rfl, rfl⟩ := Expr.aggregate.inj (Option.some.inj aggregates)
    obtain rfl := column.1 values
    exact answers
  · exact fun answers => .intro rfl unbounded (column.2 rfl) answers

/-- The first source of a row is an instance of the entity type that the stream began with. -/
theorem first_mem_of_mem_product {entity : String} {rest : List Source} {row : SourceRow}
    (root : m.sources = .root entity :: rest) (hrow : row ∈ m.product db) :
    ∃ v ∈ db entity, row[0]? = some v := by
  unfold product at hrow
  rw [root] at hrow
  clear root
  induction rest using List.reverseRecOn generalizing row with
  | nil =>
    obtain ⟨before, hbefore, hrow⟩ := List.mem_flatMap.1 hrow
    obtain rfl := List.mem_singleton.1 hbefore
    obtain ⟨v, hv, rfl⟩ := List.mem_map.1 hrow
    exact ⟨v, hv, rfl⟩
  | append_singleton rest source ih =>
    rw [← List.cons_append, List.foldl_append] at hrow
    obtain ⟨before, hbefore, hrow⟩ := List.mem_flatMap.1 hrow
    obtain ⟨w, -, rfl⟩ := List.mem_map.1 hrow
    obtain ⟨v, hv, first⟩ := ih hbefore
    exact ⟨v, hv, by rw [List.getElem?_append_left (List.getElem?_eq_some_iff.1 first).1, first]⟩

/-- Without an expression the first source is aggregated or a column of the element. -/
theorem mem_columns_of_aggregateArgument (h : m.aggregateArgument kind = .ok argument)
    (scalar : argument.type.isPlural = false) :
    argument = m.firstSource ∨ argument ∈ m.element.columns := by
  unfold aggregateArgument at h
  split at h
  · exact .inl (Except.ok.inj h).symm
  split at h
  · next es nesting element =>
    rw [element]
    split at h
    · cases h
    obtain rfl := Except.ok.inj h
    cases es with
    | nil => cases scalar
    | cons e es => exact .inr List.mem_cons_self
  · obtain rfl : m.element = argument := Except.ok.inj h
    rw [Expr.columns_eq (Expr.isTuple_of_isPlural scalar)]
    exact .inr List.mem_cons_self

/-- A count of distinct elements counts one column. -/
theorem columns_of_aggregateArgument (single : m.distinct = true)
    (h : m.aggregateArgument .count = .ok argument) (scalar : argument.type.isPlural = false) :
    m.element.columns = [argument] := by
  rw [aggregateArgument, if_neg (by simp [single])] at h
  split at h
  · next es n element =>
    rw [element]
    split at h
    · cases h
    · next few =>
      have few : es.length ≤ 1 := by simpa [single] using few
      obtain rfl := Except.ok.inj h
      match es, few with
      | [], _ => cases scalar
      | [e], _ => rfl
  · obtain rfl : m.element = argument := Except.ok.inj h
    exact Expr.columns_eq (Expr.isTuple_of_isPlural scalar)

/-- What the element and its only column have on a row that has an element. -/
theorem value_of_column {row : SourceRow} (column : m.element.columns = [argument])
    (whole : m.element.value row = .ok (m.elementOn row)) :
    argument.value row = .ok (argument.valueOn row) ∧
      m.elementOn row = (m.element.nesting.build [argument.valueOn row]).1 := by
  obtain ⟨cols, hcols, built⟩ := m.element.value_eq_build.1 whole
  rw [column] at hcols
  obtain ⟨c, rest, hc, hrest, rfl⟩ := Expr.values_cons.1 hcols
  obtain rfl : [] = rest := Except.ok.inj hrest
  rw [Expr.valueOn_eq hc]
  exact ⟨hc, built.symm⟩

theorem coe_ordered (m : QueryModel) (db : Database) :
    (m.ordered db : Multiset SourceRow) = m.kept db :=
  Multiset.coe_eq_coe.2 (List.mergeSort_perm _ _)

/-! ### The elements of a stream -/

section Elements

variable {metamodel : Metamodel} {sources : List String}
  (formed : m.element.Formed metamodel sources) (unbounded : m.window.isUnbounded)
  (h : m.items db = l.map .ok)
include formed unbounded h

/-- Where all elements are there each row has one. -/
theorem whole_of_items :
    ∀ row ∈ m.ordered db, m.element.value row = .ok (m.elementOn row) := by
  classical
  intro row hrow
  rw [items, Window.slice_of_isUnbounded unbounded] at h
  have mem : m.item row ∈ m.unwindowed db := by
    have listed : m.item row ∈ (m.ordered db).map m.item := List.mem_map_of_mem hrow
    unfold unwindowed
    dsimp only
    split
    · exact mem_keepFirst.2 listed
    · exact listed
  rw [h] at mem
  obtain ⟨v, -, hv⟩ := List.mem_map.1 mem
  exact Expr.value_eq_valueOn ((item_eq formed).1 hv.symm)

/-- In no order the elements are those of the rows that are kept. -/
theorem coe_items :
    (l : Multiset Value) = Aggregate.once m.distinct ((m.kept db : Multiset _).map m.elementOn) := by
  have whole := whole_of_items formed unbounded h
  rw [items, Window.slice_of_isUnbounded unbounded, unwindowed_eq formed whole] at h
  have listed : l = m.once ((m.ordered db).map m.elementOn) :=
    (List.map_injective_iff.2 (fun _ _ => Except.ok.inj) h).symm
  rw [listed, ← coe_ordered, Multiset.map_coe, Aggregate.once_coe]
  rfl

theorem elementOn_mem {row : SourceRow} (hrow : row ∈ m.kept db) : m.elementOn row ∈ l := by
  rw [← Multiset.mem_coe, coe_items formed unbounded h, Aggregate.mem_once]
  exact Multiset.mem_map_of_mem _ hrow

/-- A column on which a function of the elements is taken has what it gives for them, if it keeps
apart distinct elements. -/
theorem once_column {f : Value → Value}
    (agrees : ∀ row ∈ m.kept db, e.valueOn row = f (m.elementOn row))
    (apart : m.distinct → ∀ a ∈ m.kept db, ∀ b ∈ m.kept db,
      e.valueOn a = e.valueOn b → m.elementOn a = m.elementOn b) :
    Aggregate.once m.distinct ((m.kept db).map e.valueOn) = (l.map f : Multiset Value) := by
  have column : ((m.kept db).map e.valueOn : Multiset Value) =
      (m.kept db : Multiset _).map fun row => f (m.elementOn row) := by
    rw [Multiset.map_coe]
    exact congrArg _ (List.map_congr_left agrees)
  rw [column, Aggregate.once_map, ← coe_items formed unbounded h, Multiset.map_coe]
  intro single a ha b hb same
  rw [← agrees a ha, ← agrees b hb] at same
  exact apart single a ha b hb same

/-- A count of all rows is that of the elements. -/
theorem answers_countRows (single : m.distinct = false) {entity : String} {rest : List Source}
    (root : m.sources = .root entity :: rest) (present : ∀ v ∈ db entity, v.isNull = false) :
    (m.aggregated .count m.firstSource).Answers db v ↔ v = .int (.ofNat l.length) := by
  have first : ∀ row ∈ m.kept db, ∃ w ∈ db entity, m.firstSource.value row = .ok w := by
    intro row hrow
    obtain ⟨w, hw, first⟩ := first_mem_of_mem_product root (List.mem_filter.1 hrow).1
    exact ⟨w, hw, by rw [firstSource, Expr.value, first]⟩
  have whole : ∀ row ∈ m.kept db, m.firstSource.value row = .ok (m.firstSource.valueOn row) := by
    intro row hrow
    obtain ⟨w, -, hw⟩ := first row hrow
    exact Expr.value_eq_valueOn hw
  have column : ∀ w ∈ ((m.kept db).map m.firstSource.valueOn : Multiset Value),
      w.isNull = false := by
    intro w hw
    obtain ⟨row, hrow, rfl⟩ := List.mem_map.1 (Multiset.mem_coe.1 hw)
    obtain ⟨w, hw, read⟩ := first row hrow
    rw [Expr.valueOn_eq read]
    exact present w hw
  have count : l.length = (m.kept db).length := by
    have same := congrArg Multiset.card (coe_items formed unbounded h)
    simpa [single, Aggregate.once] using same
  rw [answers_aggregated unbounded whole, Aggregate.answers_count, single,
    Aggregate.regarded_of_present column, Multiset.coe_card, List.length_map, count]

open Classical in
/-- A count of distinct elements is one short where one of them is null in the column that is
counted. -/
theorem answers_countDistinct (single : m.distinct = true)
    (column : m.element.columns = [argument]) :
    ∃ n, (∀ v, (m.aggregated .count argument).Answers db v ↔ v = .int (.ofNat n)) ∧
      n + (if (m.aggregated .count argument).CountsNull db then 1 else 0) = l.length := by
  have parts : ∀ row ∈ m.kept db, argument.value row = .ok (argument.valueOn row) ∧
      m.elementOn row = (m.element.nesting.build [argument.valueOn row]).1 := fun row hrow =>
    value_of_column column (whole_of_items formed unbounded h row (mem_ordered.2 hrow))
  have width : m.element.nesting.width = 1 := by rw [formed.width_nesting, column]; rfl
  -- elements differ just where their only column does
  have injective : Function.Injective fun c => (m.element.nesting.build [c]).1 := fun a b same =>
    List.singleton_inj.1
      (m.element.nesting.build_injective [a] [b] (by simp [width]) (by simp [width]) same)
  have counted : (Aggregate.once true ((m.kept db).map argument.valueOn)).card = l.length := by
    have elements : (m.kept db : Multiset SourceRow).map m.elementOn =
        (m.kept db : Multiset _).map fun row =>
          (m.element.nesting.build [argument.valueOn row]).1 :=
      Multiset.map_congr rfl fun row hrow => (parts row hrow).2
    have same := congrArg Multiset.card (coe_items formed unbounded h)
    rw [Multiset.coe_card, elements, Aggregate.card_once_map injective, single] at same
    exact same.symm
  have nulls : (m.aggregated .count argument).CountsNull db ↔
      .null ∈ ((m.kept db).map argument.valueOn : Multiset Value) := by
    rw [Multiset.mem_coe, List.mem_map]
    constructor
    · rintro ⟨_, aggregates, row, hrow, null⟩
      obtain ⟨-, rfl, -⟩ := Expr.aggregate.inj (Option.some.inj aggregates)
      exact ⟨row, hrow, Expr.valueOn_eq null⟩
    · rintro ⟨row, hrow, null⟩
      refine ⟨argument, by rw [aggregated, single], row, hrow, ?_⟩
      rw [(parts row hrow).1, null]
  refine ⟨(Aggregate.regarded true ((m.kept db).map argument.valueOn)).card, fun v => ?_, ?_⟩
  · rw [answers_aggregated unbounded fun row hrow => (parts row hrow).1, Aggregate.answers_count,
      single]
  · rw [← counted, ← Aggregate.card_regarded]
    simp only [nulls]

end Elements

end EntityQuery.QueryModel
