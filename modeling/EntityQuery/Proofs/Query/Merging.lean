import EntityQuery.Proofs.Query.Rows
import EntityQuery.Proofs.Query.Window
import EntityQuery.Proofs.Value.Key

/-! Merging a clause keeps a model in step with a list: if the model asks for the elements of a
list, with the clause it asks for what the clause makes of that list. Clauses stand in the model in
an order of their own, so each of them has to commute with those that are asked after it. -/
namespace EntityQuery

namespace QueryModel

variable {m m' : QueryModel} {e : Expr}

/-! What a merged clause changes, and what it found. -/

theorem refuseWindow_ok {clause : Clause} (h : m.refuseWindow clause = .ok ()) :
    m.window.isUnbounded := by
  unfold refuseWindow at h
  split at h
  · next unbounded => exact unbounded
  · cases h

theorem refuseDistinct_ok {clause : Clause} (h : m.refuseDistinct clause = .ok ()) :
    m.distinct = false := by
  unfold refuseDistinct at h
  split at h
  · cases h
  · next single => simpa using single

theorem select_eq (h : m.select e = .ok m') :
    m.distinct = false ∧ m' = { m with projection := some e } := by
  obtain ⟨_, single, h⟩ := bind_ok_iff.1 h
  obtain ⟨_, -, h⟩ := bind_ok_iff.1 h
  refine ⟨refuseDistinct_ok single, ?_⟩
  split at h
  · split at h
    · exact (Except.ok.inj h).symm
    · cases h
  · split at h
    · exact (Except.ok.inj h).symm
    · cases h
  · exact (Except.ok.inj h).symm

theorem filter_eq (h : m.filter e = .ok m') : m.window.isUnbounded ∧
    m' = { m with predicate := Expr.conjunction? (m.predicate.toList ++ [e]) } := by
  obtain ⟨_, unbounded, h⟩ := bind_ok_iff.1 h
  obtain ⟨_, -, h⟩ := bind_ok_iff.1 h
  refine ⟨refuseWindow_ok unbounded, ?_⟩
  split at h
  · exact (Except.ok.inj h).symm
  · cases h

theorem filter_type (h : m.filter e = .ok m') : ExprType.boolean.accepts e.type := by
  obtain ⟨_, -, h⟩ := bind_ok_iff.1 h
  obtain ⟨_, -, h⟩ := bind_ok_iff.1 h
  split at h
  · next boolean => simpa [ExprType.accepts] using boolean
  · cases h

theorem checkSource_ok {id : Nat} (h : m.checkSource id = .ok ()) : id < m.sources.length := by
  unfold checkSource at h
  split at h
  · next bound => exact bound
  · cases h

/-- The model with one more source, whose element is the pair of the old one and the new source. -/
def joined (m : QueryModel) (source : Source) : QueryModel :=
  { m with
    sources := m.sources ++ [source]
    projection := some (.tupleOf [m.element, .source m.sources.length source.entity]) }

/-- A path starts at a source that is there. -/
theorem join_eq {source : Source} (h : m.join source = .ok m') :
    m.window.isUnbounded ∧ m.distinct = false ∧
      (∀ parent names entity, source = .path parent names entity → parent < m.sources.length) ∧
      m' = m.joined source := by
  obtain ⟨_, unbounded, h⟩ := bind_ok_iff.1 h
  obtain ⟨_, single, h⟩ := bind_ok_iff.1 h
  refine ⟨refuseWindow_ok unbounded, refuseDistinct_ok single, ?_⟩
  cases source with
  | root entity =>
    refine ⟨?_, (Except.ok.inj h).symm⟩
    rintro _ _ _ ⟨⟩
  | path id names entity =>
    obtain ⟨_, parent, h⟩ := bind_ok_iff.1 h
    refine ⟨?_, (Except.ok.inj h).symm⟩
    rintro _ _ _ ⟨⟩
    exact checkSource_ok parent

theorem sort_eq {direction : Direction} (h : m.sort e direction = .ok m') :
    m.window.isUnbounded ∧ m' = { m with ordering := ⟨e, direction⟩ :: m.ordering } := by
  obtain ⟨_, unbounded, h⟩ := bind_ok_iff.1 h
  obtain ⟨_, -, h⟩ := bind_ok_iff.1 h
  refine ⟨refuseWindow_ok unbounded, ?_⟩
  split at h
  · exact (Except.ok.inj h).symm
  · cases h

theorem dedupe_eq (h : m.dedupe = .ok m') :
    m.window.isUnbounded ∧ m' = { m with distinct := true } := by
  obtain ⟨_, unbounded, h⟩ := bind_ok_iff.1 h
  exact ⟨refuseWindow_ok unbounded, (Except.ok.inj h).symm⟩

/-! What a model asks for with the clause. -/

variable {db : Database}

/-- What the element of a row is. -/
abbrev elementOn (m : QueryModel) (row : SourceRow) : Value := m.element.valueOn row

open Classical in
/-- Elements, each once where the model asks for distinct ones. -/
noncomputable def once (m : QueryModel) (l : List Value) : List Value :=
  if m.distinct then keepFirst id l else l

theorem once_of_not_distinct (h : m.distinct = false) (l : List Value) : m.once l = l := by
  simp [once, h]

theorem mem_once {l : List Value} {v : Value} : v ∈ m.once l ↔ v ∈ l := by
  classical
  unfold once
  split
  · exact mem_keepFirst
  · rfl

theorem once_filter (l : List Value) (p : Value → Bool) :
    m.once (l.filter p) = (m.once l).filter p := by
  classical
  unfold once
  split
  · exact keepFirst_filter fun _ _ _ _ same => congrArg p same
  · rfl

theorem once_stable {order : Value → Value → Ordering} {l l' : List Value}
    (h : StableSort order l l') : StableSort order (m.once l) (m.once l') := by
  classical
  unfold once
  split
  · exact h.keepFirst
  · exact h

open Classical in
theorem keepFirst_once (l : List Value) : keepFirst id (m.once l) = keepFirst id l := by
  unfold once
  split
  · exact keepFirst_keepFirst l
  · rfl

/-- Where every row has an element, these are what the window is laid on. -/
theorem unwindowed_eq {metamodel : Metamodel} {sources : List String}
    (formed : m.element.Formed metamodel sources)
    (whole : ∀ row ∈ m.ordered db, m.element.value row = .ok (m.elementOn row)) :
    m.unwindowed db = (m.once ((m.ordered db).map m.elementOn)).map .ok := by
  have items : (m.ordered db).map m.item = ((m.ordered db).map m.elementOn).map .ok := by
    rw [List.map_map]
    exact List.map_congr_left fun row hrow => (item_eq formed).2 (whole row hrow)
  classical
  unfold unwindowed once
  rw [items]
  split
  · rw [keepFirst_map]
    congr 1
    exact keepFirst_congr fun a _ b _ => by simp
  · rfl

/-- Where the predicate is a conjunction the rows are kept one conjunct after the other. -/
theorem kept_filter (m : QueryModel) (e : Expr) (db : Database) :
    kept { m with predicate := Expr.conjunction? (m.predicate.toList ++ [e]) } db =
      (m.kept db).filter (Expr.holds · e) := by
  unfold kept
  rw [List.filter_filter]
  refine List.filter_congr fun row _ => ?_
  cases m.predicate with
  | none => simp [Expr.conjunction?]
  | some p => simp [Expr.conjunction?, Expr.holds_and, Bool.and_comm]

theorem product_joined (m : QueryModel) (source : Source) (db : Database) :
    (m.joined source).product db = (m.product db).flatMap (source.extend db) := by
  simp [product, joined, List.foldl_append]

/-- Rows are kept with one more source when they were kept before. -/
theorem kept_joined (m : QueryModel) (source : Source) (db : Database)
    (within : ∀ e ∈ m.predicate, e.Within m.sources.length) :
    (m.joined source).kept db = (m.kept db).flatMap (source.extend db) := by
  unfold kept
  rw [product_joined, show (m.joined source).predicate = m.predicate from rfl]
  have same {row : SourceRow} (hrow : row ∈ m.product db) {row' : SourceRow}
      (hrow' : row' ∈ source.extend db row) :
      m.predicate.all (Expr.holds row') = m.predicate.all (Expr.holds row) := by
    obtain ⟨v, -, rfl⟩ := List.mem_map.1 hrow'
    cases hp : m.predicate with
    | none => rfl
    | some p =>
      have reads := within p hp row [v] (length_of_mem_product hrow)
      simp [Expr.holds, reads]
  generalize m.product db = rows at same
  induction rows with
  | nil => rfl
  | cons row rows ih =>
    have later := ih fun h => same (List.mem_cons_of_mem _ h)
    rw [List.flatMap_cons, List.filter_append, later,
      List.filter_congr fun row' => same List.mem_cons_self]
    cases hp : m.predicate.all (Expr.holds row) <;> simp [hp]

theorem parts_formed {metamodel : Metamodel} (source : Source)
    (formed : m.element.Formed metamodel (m.sources.map Source.entity)) :
    ∀ e ∈ [m.element, .source m.sources.length source.entity],
      e.Formed metamodel ((m.joined source).sources.map Source.entity) := by
  have old : m.element.Formed metamodel ((m.sources ++ [source]).map Source.entity) := by
    rw [List.map_append]
    exact formed.append _
  have known : ((m.sources ++ [source]).map Source.entity)[m.sources.length]? =
      some source.entity := by
    simp
  simp only [List.forall_mem_cons]
  exact ⟨old, .source known, by simp⟩

/-- Beside a row that is longer by a member, the element is the pair of the old element and the
member. -/
theorem element_joined {metamodel : Metamodel} (source : Source)
    (formed : m.element.Formed metamodel (m.sources.map Source.entity)) {row : SourceRow}
    {w : Value} (length : row.length = m.sources.length) (element : m.element.value row = .ok w)
    (v : Value) : (m.joined source).element.value (row ++ [v]) = .ok (w.pair v) := by
  have old : m.element.value (row ++ [v]) = .ok w := by
    rw [formed.within row [v] (by simpa using length), element]
  have member : Expr.value (row ++ [v]) (.source m.sources.length source.entity) = .ok v := by
    rw [Expr.value, ← length, List.getElem?_concat_length]
  exact Expr.value_tupleOf (parts_formed source formed) (.cons old (.cons member .nil))

end QueryModel

/-- The model asks for the elements of the list. Before a window is laid on them every row has an
element, which later clauses build on. -/
structure Mirrors (metamodel : Metamodel) (db : Database) (m : QueryModel) (l : List Value) :
    Prop where
  items : m.items db = l.map .ok
  element : m.element.Formed metamodel (m.sources.map Source.entity)
  predicate : ∀ e ∈ m.predicate, e.Within m.sources.length
  keys : ∀ key ∈ m.ordering, key.expr.Within m.sources.length
  ordered : ∀ key ∈ m.ordering, OrderedOn key.order (m.kept db)
  whole : m.window.isUnbounded → ∀ row ∈ m.ordered db, m.element.value row = .ok (m.elementOn row)

namespace Mirrors

variable {metamodel : Metamodel} {db : Database} {m m' : QueryModel} {l : List Value} {e : Expr}

theorem ok_injective : Function.Injective (Except.ok : Value → Except QueryError Value) :=
  fun _ _ => Except.ok.inj

theorem eq_once (h : Mirrors metamodel db m l) (unbounded : m.window.isUnbounded) :
    l = m.once ((m.ordered db).map m.elementOn) := by
  have items := h.items
  rw [QueryModel.items, Window.slice_of_isUnbounded unbounded,
    QueryModel.unwindowed_eq h.element (h.whole unbounded)] at items
  exact (List.map_injective_iff.2 ok_injective items).symm

theorem mem_of_mem_ordered (h : Mirrors metamodel db m l) (unbounded : m.window.isUnbounded)
    {row : SourceRow} (hrow : row ∈ m.ordered db) : m.elementOn row ∈ l := by
  rw [h.eq_once unbounded]
  exact QueryModel.mem_once.2 (List.mem_map_of_mem hrow)

theorem stable (h : Mirrors metamodel db m l) :
    StableSort (OrderKey.lexicographic m.ordering) (m.kept db) (m.ordered db) :=
  .mergeSort (OrderKey.orderedOn_lexicographic h.ordered)

/-- A sorted list of the rows that are kept is what the model orders them to. -/
theorem ordered_eq (ordered : ∀ key ∈ m.ordering, OrderedOn key.order (m.kept db))
    {rows : List SourceRow}
    (sorted : StableSort (OrderKey.lexicographic m.ordering) (m.kept db) rows) :
    m.ordered db = rows :=
  (StableSort.mergeSort (OrderKey.orderedOn_lexicographic ordered)).unique
    (OrderKey.orderedOn_lexicographic ordered) sorted

theorem items_of_once (unbounded : m.window.isUnbounded)
    (formed : m.element.Formed metamodel (m.sources.map Source.entity))
    (whole : ∀ row ∈ m.ordered db, m.element.value row = .ok (m.elementOn row))
    (hl : l = m.once ((m.ordered db).map m.elementOn)) : m.items db = l.map .ok := by
  rw [QueryModel.items, Window.slice_of_isUnbounded unbounded,
    QueryModel.unwindowed_eq formed whole, hl]

/-- At the start a model asks for all instances of an entity type. -/
theorem root (entity : String) (hints : Hints) :
    Mirrors metamodel db { QueryModel.root entity with hints } (db entity) := by
  have formed : Expr.Formed metamodel [entity] (.source 0 entity) := .source rfl
  have kept : QueryModel.kept { QueryModel.root entity with hints } db =
      (db entity).map fun v => [v] := by
    simp [QueryModel.kept, QueryModel.product, QueryModel.root, Source.extend, Source.members]
  have ordered : QueryModel.ordered { QueryModel.root entity with hints } db =
      (db entity).map fun v => [v] := by
    rw [← kept]
    exact ordered_eq (fun _ h => by cases h) (.refl (List.pairwise_of_forall fun _ _ => rfl))
  have whole : ∀ row ∈ QueryModel.ordered { QueryModel.root entity with hints } db,
      Expr.value row (.source 0 entity) = .ok (Expr.valueOn (.source 0 entity) row) := by
    rw [ordered]
    intro row hrow
    obtain ⟨v, -, rfl⟩ := List.mem_map.1 hrow
    rfl
  refine ⟨items_of_once rfl formed whole ?_, formed, by simp [QueryModel.root],
    by simp [QueryModel.root], by simp [QueryModel.root], fun _ => whole⟩
  rw [QueryModel.once_of_not_distinct rfl, ordered, List.map_map]
  exact (List.map_id _).symm

theorem map_ok_of_map_ok {rows : List SourceRow} {item item' : SourceRow → Except QueryError Value}
    {l : List Value} {g : Value → Value} (h : rows.map item = l.map .ok)
    (step : ∀ row ∈ rows, ∀ v ∈ l, item row = .ok v → item' row = .ok (g v)) :
    rows.map item' = (l.map g).map .ok := by
  induction rows generalizing l with
  | nil =>
    obtain rfl := List.map_eq_nil_iff.1 h.symm
    rfl
  | cons row rows ih =>
    cases l with
    | nil => cases h
    | cons v l =>
      obtain ⟨first, others⟩ := List.cons.inj h
      have tail := ih others fun row hrow v hv =>
        step row (List.mem_cons_of_mem _ hrow) v (List.mem_cons_of_mem _ hv)
      rw [List.map_cons, List.map_cons, List.map_cons, tail,
        step row List.mem_cons_self v List.mem_cons_self first]

/-- A selection gives for each element what its function gives, also behind a window. -/
theorem select (h : Mirrors metamodel db m l) (merged : m.select e = .ok m')
    (formed : e.Formed metamodel (m.sources.map Source.entity)) {g : Value → Value}
    (agrees : ∀ row ∈ m.ordered db, ∀ v ∈ l, m.element.value row = .ok v →
      e.value row = .ok (g v)) : Mirrors metamodel db m' (l.map g) := by
  obtain ⟨single, rfl⟩ := QueryModel.select_eq merged
  have items := h.items
  simp only [QueryModel.items, QueryModel.unwindowed, single, Bool.false_eq_true, if_false,
    Window.slice_map] at items
  refine ⟨?_, formed, h.predicate, h.keys, h.ordered, fun unbounded row hrow => ?_⟩
  · simp only [QueryModel.items, QueryModel.unwindowed, single, Bool.false_eq_true, if_false,
      Window.slice_map]
    refine map_ok_of_map_ok items fun row hrow v hv hitem => ?_
    have selected := agrees row (Window.mem_of_mem_slice hrow) v hv
      ((QueryModel.item_eq h.element).1 hitem)
    exact (QueryModel.item_eq (m := { m with projection := some e }) formed).2 selected
  · have element := h.whole unbounded row hrow
    have selected := agrees row hrow _ (h.mem_of_mem_ordered unbounded hrow) element
    exact Expr.value_eq_valueOn selected

/-- A filter keeps of the rows those whose elements it keeps. -/
theorem filter (h : Mirrors metamodel db m l) (merged : m.filter e = .ok m')
    (formed : e.Formed metamodel (m.sources.map Source.entity)) {keep : Value → Bool}
    (agrees : ∀ row ∈ m.ordered db, ∀ v ∈ l, m.element.value row = .ok v →
      e.value row = .ok (.bool (keep v))) : Mirrors metamodel db m' (l.filter keep) := by
  obtain ⟨unbounded, heq⟩ := QueryModel.filter_eq merged
  have kept : m'.kept db = (m.kept db).filter (Expr.holds · e) := by
    rw [heq]
    exact m.kept_filter e db
  have keys : ∀ key ∈ m'.ordering, OrderedOn key.order (m'.kept db) := by
    rw [kept, heq]
    exact fun key hkey => (h.ordered key hkey).mono fun _ hrow => (List.mem_filter.1 hrow).1
  have ordered : m'.ordered db = (m.ordered db).filter (Expr.holds · e) := by
    refine ordered_eq keys ?_
    rw [kept, heq]
    exact h.stable.filter _
  have within : ∀ p ∈ m'.predicate, p.Within m.sources.length := by
    have formed : e.Within m.sources.length := by simpa using formed.within
    rw [heq]
    intro p hp
    cases hm : m.predicate with
    | none =>
      obtain rfl : e = p := by simpa [hm, Expr.conjunction?] using hp
      exact formed
    | some old =>
      obtain rfl : Expr.binary .and old e = p := by simpa [hm, Expr.conjunction?] using hp
      exact (h.predicate old hm).and formed
  subst heq
  have whole : ∀ row ∈ (m.ordered db).filter (Expr.holds · e),
      m.element.value row = .ok (m.elementOn row) := fun row hrow =>
    h.whole unbounded row (List.mem_filter.1 hrow).1
  rw [← ordered] at whole
  refine ⟨items_of_once unbounded h.element whole ?_, h.element, within, h.keys, keys,
    fun _ => whole⟩
  have decided : ∀ row ∈ m.ordered db, e.holds row = keep (m.elementOn row) := by
    intro row hrow
    rw [Expr.holds, agrees row hrow _ (h.mem_of_mem_ordered unbounded hrow)
      (h.whole unbounded row hrow)]
  rw [ordered, List.filter_congr decided]
  exact (congrArg (List.filter keep) (h.eq_once unbounded)).trans
    ((QueryModel.once_filter _ keep).symm.trans (congrArg _ List.filter_map))

/-- One more source leaves the keys in order. -/
theorem keys_joined (h : Mirrors metamodel db m l) (source : Source) :
    ∀ key ∈ m.ordering, OrderedOn key.order ((m.joined source).kept db) := by
  rw [m.kept_joined source db h.predicate]
  intro key hkey
  refine (h.ordered key hkey).flatMap fun a ha a' ha' b hb b' hb' => ?_
  exact OrderKey.order_extend (h.keys key hkey) (QueryModel.length_of_mem_kept ha)
    (QueryModel.length_of_mem_kept ha') hb hb'

/-- Sorted rows that become longer by a source are sorted. -/
theorem ordered_joined (h : Mirrors metamodel db m l) (source : Source) :
    (m.joined source).ordered db = (m.ordered db).flatMap (source.extend db) := by
  refine ordered_eq (h.keys_joined source) ?_
  rw [m.kept_joined source db h.predicate]
  refine h.stable.flatMap (OrderKey.orderedOn_lexicographic h.ordered) ?_
  intro a ha a' ha' b hb b' hb'
  exact OrderKey.lexicographic_extend h.keys (QueryModel.length_of_mem_kept ha)
    (QueryModel.length_of_mem_kept ha') hb hb'

/-- A join pairs each element with what its source ranges over beside the row. -/
theorem join (h : Mirrors metamodel db m l) {source : Source} (merged : m.join source = .ok m')
    {items : Value → List Value}
    (agrees : ∀ row ∈ m.ordered db, ∀ v ∈ l, m.element.value row = .ok v →
      source.members db row = items v) :
    Mirrors metamodel db m' (l.flatMap fun v => (items v).map v.pair) := by
  obtain ⟨unbounded, single, -, rfl⟩ := QueryModel.join_eq merged
  have paired : ∀ row ∈ m.ordered db, ∀ v, (m.joined source).element.value (row ++ [v]) =
      .ok ((m.elementOn row).pair v) := fun row hrow v =>
    QueryModel.element_joined source h.element
      (QueryModel.length_of_mem_kept (QueryModel.mem_ordered.1 hrow)) (h.whole unbounded row hrow) v
  have formed : (m.joined source).element.Formed metamodel
      ((m.joined source).sources.map Source.entity) :=
    .tupleOf (QueryModel.parts_formed source h.element)
  have whole : ∀ row ∈ (m.joined source).ordered db,
      (m.joined source).element.value row = .ok ((m.joined source).elementOn row) := by
    rw [h.ordered_joined]
    intro row hrow
    obtain ⟨before, hbefore, hrow⟩ := List.mem_flatMap.1 hrow
    obtain ⟨v, -, rfl⟩ := List.mem_map.1 hrow
    exact Expr.value_eq_valueOn (paired before hbefore v)
  have elements : ((m.joined source).ordered db).map (m.joined source).elementOn =
      ((m.ordered db).map m.elementOn).flatMap fun v => (items v).map v.pair := by
    rw [h.ordered_joined, List.map_flatMap, List.flatMap_map]
    refine List.flatMap_congr fun row hrow => ?_
    have members := agrees row hrow _ (h.mem_of_mem_ordered unbounded hrow)
      (h.whole unbounded row hrow)
    rw [Source.extend, members, List.map_map]
    exact List.map_congr_left fun v _ => Expr.valueOn_eq (paired row hrow v)
  have within {e : Expr} (he : e.Within m.sources.length) :
      e.Within (m.joined source).sources.length := by
    rw [QueryModel.joined, List.length_append]
    exact he.succ
  refine ⟨items_of_once unbounded formed whole ?_, formed, fun e he => within (h.predicate e he),
    fun key hkey => within (h.keys key hkey), h.keys_joined source, fun _ => whole⟩
  rw [QueryModel.once_of_not_distinct (m := m.joined source) single, elements, h.eq_once unbounded,
    QueryModel.once_of_not_distinct single]

/-- A sort by the newest key comes after those by the keys before it. -/
theorem sort [Libraries] [Libraries.SortsStably] (h : Mirrors metamodel db m l)
    {direction : Direction} (merged : m.sort e direction = .ok m')
    (formed : e.Formed metamodel (m.sources.map Source.entity)) {key : Value → Value}
    (sortable : OrderedOn direction.order (l.map key))
    (agrees : ∀ row ∈ m.ordered db, ∀ v ∈ l, m.element.value row = .ok v →
      e.value row = .ok (key v)) :
    Mirrors metamodel db m' (direction.sort (l.map fun v => (key v, v))) := by
  obtain ⟨unbounded, heq⟩ := QueryModel.sort_eq merged
  have elements : ∀ v ∈ (m.ordered db).map m.elementOn, v ∈ l := by
    rw [h.eq_once unbounded]
    exact fun v => QueryModel.mem_once.2
  have byElement : OrderedOn
      (fun a b => direction.order (key (m.elementOn a)) (key (m.elementOn b))) (m.ordered db) :=
    (sortable.of_map.mono elements).of_map
  have rank : ∀ a ∈ m.ordered db, ∀ b ∈ m.ordered db, OrderKey.order ⟨e, direction⟩ a b =
      direction.order (key (m.elementOn a)) (key (m.elementOn b)) := by
    have value (row : SourceRow) (hrow : row ∈ m.ordered db) :
        e.valueOn row = key (m.elementOn row) :=
      Expr.valueOn_eq (agrees row hrow _ (h.mem_of_mem_ordered unbounded hrow)
        (h.whole unbounded row hrow))
    intro a ha b hb
    rw [OrderKey.order, value a ha, value b hb]
  have newest : OrderedOn (OrderKey.order ⟨e, direction⟩) (m.kept db) :=
    (byElement.congr rank).mono fun _ => QueryModel.mem_ordered.2
  have keys : ∀ key ∈ m'.ordering, OrderedOn key.order (m'.kept db) := by
    rw [heq]
    exact List.forall_mem_cons.2 ⟨newest, h.ordered⟩
  have sorted := StableSort.mergeSort byElement
  have ordered : m'.ordered db = (m.ordered db).mergeSort fun a b =>
      (direction.order (key (m.elementOn a)) (key (m.elementOn b))).isLE := by
    refine ordered_eq keys ?_
    rw [heq]
    exact StableSort.lex newest (OrderKey.orderedOn_lexicographic h.ordered) h.stable
      (sorted.congr rank)
  have listed : direction.sort (l.map fun v => (key v, v)) =
      m.once ((m'.ordered db).map m.elementOn) := by
    refine (Direction.sort_map_stable sortable).unique sortable.of_map ?_
    rw [ordered, h.eq_once unbounded]
    have elementwise : StableSort (fun v w => direction.order (key v) (key w))
        ((m.ordered db).map m.elementOn) _ := .map sorted
    exact QueryModel.once_stable elementwise
  have whole : ∀ row ∈ m'.ordered db, m.element.value row = .ok (m.elementOn row) := by
    rw [ordered]
    exact fun row hrow => h.whole unbounded row (List.mem_mergeSort.1 hrow)
  have within : e.Within m.sources.length := by simpa using formed.within
  subst heq
  exact ⟨items_of_once unbounded h.element whole listed, h.element, h.predicate,
    List.forall_mem_cons.2 ⟨within, h.keys⟩, keys, fun _ => whole⟩

/-- Elements that their texts tell apart are the same elements to the model and to the list. -/
theorem dedupe [Libraries] [Libraries.JsonNumerals] (h : Mirrors metamodel db m l)
    (merged : m.dedupe = .ok m') (apart : ToldApart l) :
    Mirrors metamodel db m' (keepFirst Value.key l) := by
  classical
  obtain ⟨unbounded, rfl⟩ := QueryModel.dedupe_eq merged
  have listed : keepFirst Value.key l = keepFirst id ((m.ordered db).map m.elementOn) := by
    have same : keepFirst Value.key l = keepFirst id l :=
      keepFirst_congr fun v hv w hw =>
        ⟨fun hkey => apart.eq_of_key hv hw hkey, fun heq => congrArg Value.key heq⟩
    rw [same, h.eq_once unbounded, QueryModel.keepFirst_once]
  exact ⟨items_of_once unbounded h.element (h.whole unbounded) listed, h.element, h.predicate,
    h.keys, h.ordered, h.whole⟩

theorem skip (h : Mirrors metamodel db m l) (n : UInt64)
    (fits : m.window.skip.toNat + n.toNat < UInt64.size ∨
      (m.unwindowed db).length < UInt64.size) :
    Mirrors metamodel db (m.skip n) (l.drop n.toNat) := by
  refine ⟨?_, h.element, h.predicate, h.keys, h.ordered, fun unbounded =>
    h.whole (Window.isUnbounded_of_skipMore unbounded)⟩
  exact (Window.slice_skipMore m.window n _ fits).trans
    ((congrArg (List.drop n.toNat) h.items).trans List.map_drop.symm)

theorem limit (h : Mirrors metamodel db m l) (n : UInt64) :
    Mirrors metamodel db (m.limit n) (l.take n.toNat) := by
  refine ⟨?_, h.element, h.predicate, h.keys, h.ordered, fun unbounded => ?_⟩
  · exact (Window.slice_limitTo m.window n _).trans
      ((congrArg (List.take n.toNat) h.items).trans List.map_take.symm)
  · simp [QueryModel.limit, Window.limitTo, Window.isUnbounded] at unbounded

end Mirrors

end EntityQuery
