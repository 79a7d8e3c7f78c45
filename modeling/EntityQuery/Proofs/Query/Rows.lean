import EntityQuery.Proofs.Expr.Tuple
import EntityQuery.Proofs.Pipeline.Serving
import EntityQuery.Proofs.Pipeline.StableSort
import EntityQuery.Query.Merge
import Mathlib.Data.List.Induction

/-! What a model asks for: the product of its sources in their order, the rows that the predicate
keeps, sorted stably with the first key as the primary one, rebuilt from the columns of the
projection, each element once if they must be distinct, and of these the window. -/
namespace EntityQuery

/-- What a source ranges over beside a row of the sources before it. A path that leads to no
collection leads to nothing. -/
def Source.members (db : Database) (row : SourceRow) : Source → List Value
  | .root entity => db entity
  | .path parent names _ =>
    match row[parent]?.map (Expr.readPath · names) with
    | some (.ok (.list items)) => items
    | _ => []

/-- The rows that a row becomes with one more source. -/
def Source.extend (db : Database) (source : Source) (row : SourceRow) : List SourceRow :=
  (source.members db row).map fun v => row ++ [v]

def Expr.holds (row : SourceRow) (e : Expr) : Bool :=
  match e.value row with
  | .ok (.bool b) => b
  | _ => false

/-- The value, or null where there is none. -/
def Expr.valueOn (e : Expr) (row : SourceRow) : Value :=
  match e.value row with
  | .ok v => v
  | .error _ => .null

namespace OrderKey

def order (key : OrderKey) (a b : SourceRow) : Ordering :=
  key.direction.order (key.expr.valueOn a) (key.expr.valueOn b)

/-- Later keys decide where the ones before them do not. -/
def lexicographic : List OrderKey → SourceRow → SourceRow → Ordering
  | [], _, _ => .eq
  | key :: keys, a, b => (key.order a b).then (lexicographic keys a b)

end OrderKey

namespace QueryModel

def product (m : QueryModel) (db : Database) : List SourceRow :=
  m.sources.foldl (fun rows source => rows.flatMap (source.extend db)) [[]]

def kept (m : QueryModel) (db : Database) : List SourceRow :=
  (m.product db).filter fun row => m.predicate.all (Expr.holds row)

def ordered (m : QueryModel) (db : Database) : List SourceRow :=
  (m.kept db).mergeSort fun a b => (OrderKey.lexicographic m.ordering a b).isLE

/-- The element of a row, rebuilt from its columns. -/
def item (m : QueryModel) (row : SourceRow) : Except QueryError Value := do
  m.rowNesting.assemble (← (Expr.values row m.element.columns).mapError .evaluation)

open Classical in
/-- The elements before the window is laid on them. -/
noncomputable def unwindowed (m : QueryModel) (db : Database) : List (Except QueryError Value) :=
  let items := (m.ordered db).map m.item
  if m.distinct then keepFirst id items else items

/-- The elements that a model asks of a database. -/
noncomputable def items (m : QueryModel) (db : Database) : List (Except QueryError Value) :=
  m.window.slice (m.unwindowed db)

end QueryModel

namespace Expr

theorem valueOn_eq {e : Expr} {row : SourceRow} {v : Value} (h : e.value row = .ok v) :
    e.valueOn row = v := by
  rw [valueOn, h]

theorem value_eq_valueOn {e : Expr} {row : SourceRow} {v : Value} (h : e.value row = .ok v) :
    e.value row = .ok (e.valueOn row) := by
  rw [valueOn_eq h, h]

/-- Sources after the first `n` make no difference. -/
def Within (n : Nat) (e : Expr) : Prop :=
  ∀ row rest : SourceRow, row.length = n → e.value (row ++ rest) = e.value row

theorem Formed.within {m : Metamodel} {sources : List String} {e : Expr}
    (h : e.Formed m sources) : e.Within sources.length := by
  intro row rest hrow
  induction h with
  | constant => rfl
  | parameter => rfl
  | @source id entity known =>
    have bound : id < row.length := hrow ▸ (List.getElem?_eq_some_iff.1 known).1
    rw [value, value, List.getElem?_append_left bound]
  | field _ _ _ _ ih => rw [value, value, ih]
  | binary _ _ _ _ left right => rw [value, value, left, right]
  | unary _ _ ih => rw [value, value, ih]
  | conditional _ _ _ _ _ _ condition whenTrue whenFalse =>
    rw [value, value, condition, whenTrue, whenFalse]
  | tuple _ _ _ ih => rw [value, value, values_congr ih]
  | apply _ _ ih => rw [value, value, values_congr ih]

theorem Within.succ {n : Nat} {e : Expr} (h : e.Within n) : e.Within (n + 1) := by
  intro row rest hrow
  obtain ⟨first, last, rfl⟩ : ∃ first last, row = first ++ [last] :=
    (List.eq_nil_or_concat' row).resolve_left fun hnil => by simp [hnil] at hrow
  have hfirst : first.length = n := by simpa using hrow
  rw [List.append_assoc, h first _ hfirst, h first _ hfirst]

theorem Within.and {n : Nat} {l r : Expr} (hl : l.Within n) (hr : r.Within n) :
    (binary .and l r).Within n := by
  intro row rest hrow
  rw [value, value, hl row rest hrow, hr row rest hrow]

/-- Expressions over sources are expressions over more of them. -/
theorem Formed.append {m : Metamodel} {sources : List String} {e : Expr}
    (h : e.Formed m sources) (more : List String) : e.Formed m (sources ++ more) := by
  induction h with
  | constant l => exact .constant l
  | parameter literal => exact .parameter literal
  | source known =>
    exact .source ((List.getElem?_append_left (List.getElem?_eq_some_iff.1 known).1).trans known)
  | field _ origin typed long ih => exact .field ih origin typed long
  | binary _ _ resolved admitted left right => exact .binary left right resolved admitted
  | unary _ admitted ih => exact .unary ih admitted
  | conditional _ _ _ boolean singleTrue singleFalse condition whenTrue whenFalse =>
    exact .conditional condition whenTrue whenFalse boolean singleTrue singleFalse
  | tuple _ flat fits ih => exact .tuple ih flat fits
  | apply _ accepted ih => exact .apply ih accepted

/-- A conjunction holds where both its parts do. -/
theorem holds_and (row : SourceRow) (l r : Expr) :
    (binary .and l r).holds row = (l.holds row && r.holds row) := by
  unfold holds
  rw [value]
  cases l.value row with
  | error e => rfl
  | ok a =>
    cases a with
    | bool b =>
      cases b with
      | false => rfl
      | true =>
        cases r.value row with
        | error e => rfl
        | ok w => cases w <;> rfl
    | _ => cases r.value row <;> rfl

end Expr

namespace OrderKey

variable {keys : List OrderKey} {l : List SourceRow}

theorem orderedOn_lexicographic (h : ∀ key ∈ keys, OrderedOn key.order l) :
    OrderedOn (lexicographic keys) l := by
  induction keys with
  | nil => exact .const l
  | cons key keys ih =>
    obtain ⟨first, others⟩ := List.forall_mem_cons.1 h
    exact first.lex (ih others)

/-- The order of rows is that of their beginnings, when the keys read nothing else. -/
theorem order_append {n : Nat} {key : OrderKey} (h : key.expr.Within n) {a b : SourceRow}
    (ha : a.length = n) (hb : b.length = n) (rest rest' : SourceRow) :
    key.order (a ++ rest) (b ++ rest') = key.order a b := by
  unfold order Expr.valueOn
  rw [h a rest ha, h b rest' hb]

/-- Rows that became longer by a source keep their order. -/
theorem order_extend {n : Nat} {key : OrderKey} (h : key.expr.Within n) {db : Database}
    {source : Source} {a a' b b' : SourceRow} (ha : a.length = n) (ha' : a'.length = n)
    (hb : b ∈ source.extend db a) (hb' : b' ∈ source.extend db a') :
    key.order b b' = key.order a a' := by
  obtain ⟨v, -, rfl⟩ := List.mem_map.1 hb
  obtain ⟨v', -, rfl⟩ := List.mem_map.1 hb'
  exact order_append h ha ha' [v] [v']

theorem lexicographic_extend {n : Nat} (h : ∀ key ∈ keys, key.expr.Within n) {db : Database}
    {source : Source} {a a' b b' : SourceRow} (ha : a.length = n) (ha' : a'.length = n)
    (hb : b ∈ source.extend db a) (hb' : b' ∈ source.extend db a') :
    lexicographic keys b b' = lexicographic keys a a' := by
  induction keys with
  | nil => rfl
  | cons key keys ih =>
    obtain ⟨first, others⟩ := List.forall_mem_cons.1 h
    rw [lexicographic, lexicographic, order_extend first ha ha' hb hb', ih others]

end OrderKey

namespace QueryModel

variable {m : QueryModel} {db : Database}

theorem length_of_mem_product {row : SourceRow} (h : row ∈ m.product db) :
    row.length = m.sources.length := by
  unfold product at h
  generalize m.sources = sources at h ⊢
  induction sources using List.reverseRecOn generalizing row with
  | nil => rw [List.mem_singleton.1 h]; rfl
  | append_singleton sources source ih =>
    rw [List.foldl_append] at h
    obtain ⟨before, hbefore, h⟩ := List.mem_flatMap.1 h
    obtain ⟨v, -, rfl⟩ := List.mem_map.1 h
    simp [ih hbefore]

theorem length_of_mem_kept {row : SourceRow} (h : row ∈ m.kept db) :
    row.length = m.sources.length :=
  length_of_mem_product (List.mem_filter.1 h).1

theorem mem_ordered {row : SourceRow} : row ∈ m.ordered db ↔ row ∈ m.kept db := List.mem_mergeSort

theorem rowNesting_eq : m.rowNesting = m.element.nesting := by
  unfold rowNesting element
  cases m.projection <;> rfl

/-- The columns of an element hold what the element is. -/
theorem item_eq {metamodel : Metamodel} {sources : List String} {row : SourceRow} {v : Value}
    (formed : m.element.Formed metamodel sources) :
    m.item row = .ok v ↔ m.element.value row = .ok v := by
  rw [m.element.value_eq_build, item, rowNesting_eq, bind_ok_iff]
  have width {cols : List Value} (h : Expr.values row m.element.columns = .ok cols) :
      cols.length = m.element.nesting.width := by
    rw [Expr.length_of_values h, formed.width_nesting]
  constructor
  · rintro ⟨cols, hcols, hv⟩
    cases hvalues : Expr.values row m.element.columns with
    | error e => rw [hvalues] at hcols; cases hcols
    | ok ws =>
      rw [hvalues] at hcols
      obtain rfl : ws = cols := Except.ok.inj hcols
      rw [Nesting.assemble, if_pos (width hvalues)] at hv
      exact ⟨ws, rfl, Except.ok.inj hv⟩
  · rintro ⟨cols, hcols, rfl⟩
    refine ⟨cols, by rw [hcols]; rfl, ?_⟩
    rw [Nesting.assemble, if_pos (width hcols)]

end QueryModel
end EntityQuery
