import EntityQuery.Proofs.Expr.Formed
import EntityQuery.Proofs.Expr.Value

/-! Expressions keep their types: over sources that conform to the metamodel the value of a formed
expression is null or of the type of the expression, as long as it comes out of no second arm of
another type. -/
namespace EntityQuery

/-- Values of a type. Null is of every type, and only null is of the unknown type; the attributes
that an entity has are of their declared kinds. -/
inductive Metamodel.Conforms (m : Metamodel) : ExprType → Value → Prop
  | null (t : ExprType) : Conforms m t .null
  | bool (b : Bool) : Conforms m .boolean (.bool b)
  | int (n : Int64) : Conforms m .numeric (.int n)
  | float (x : Float) : Conforms m .numeric (.float x)
  | string (s : String) : Conforms m .string (.string s)
  | entity {type : String} {attributes : List (String × Value)}
    (declared : ∀ name kind v, m.attribute? type name = some kind →
      Dictionary.find? attributes name = some v → Conforms m kind.type v) :
    Conforms m (.entity type) (.entity type attributes)
  | list {type : String} {items : List Value} (members : ∀ i ∈ items, Conforms m (.entity type) i) :
    Conforms m (.collection type) (.list items)
  | tuple (items : List Value) : Conforms m .tuple (.tuple items)

/-- Arms of one type, or one of them of no known type. -/
def ExprType.agrees (a b : ExprType) : Bool := a = b || a = .unknown || b = .unknown

namespace Expr

def armsAgree : Expr → Bool
  | conditional _ a b => a.type.agrees b.type
  | _ => true

/-- The arms of each conditional in an expression agree. -/
def AllArmsAgree (e : Expr) : Prop := ∀ n ∈ e.nodes, n.armsAgree

theorem allArmsAgree_field {base : Expr} {path : List String} {type : ExprType} :
    (field base path type).AllArmsAgree ↔ base.AllArmsAgree := by
  simp [AllArmsAgree, nodes, armsAgree]

theorem allArmsAgree_binary {op : BinaryOp} {l r : Expr} :
    (binary op l r).AllArmsAgree ↔ l.AllArmsAgree ∧ r.AllArmsAgree := by
  simp [AllArmsAgree, nodes, armsAgree, or_imp, forall_and]

theorem allArmsAgree_unary {op : UnaryOp} {e : Expr} :
    (unary op e).AllArmsAgree ↔ e.AllArmsAgree := by
  simp [AllArmsAgree, nodes, armsAgree]

theorem allArmsAgree_conditional {c a b : Expr} : (conditional c a b).AllArmsAgree ↔
    a.type.agrees b.type ∧ c.AllArmsAgree ∧ a.AllArmsAgree ∧ b.AllArmsAgree := by
  simp [AllArmsAgree, nodes, armsAgree, or_imp, forall_and]

theorem allArmsAgree_tuple {es : List Expr} {n : Nesting} :
    (tuple es n).AllArmsAgree ↔ ∀ e ∈ es, e.AllArmsAgree := by
  simp only [AllArmsAgree, nodes, List.mem_cons, mem_nodesOfAll]
  grind [armsAgree]

theorem allArmsAgree_apply {fn : ScalarFn} {es : List Expr} :
    (apply fn es).AllArmsAgree ↔ ∀ e ∈ es, e.AllArmsAgree := by
  simp only [AllArmsAgree, nodes, List.mem_cons, mem_nodesOfAll]
  grind [armsAgree]

end Expr

namespace Metamodel.Conforms

variable {m : Metamodel} {t : ExprType} {v : Value}

theorem null_of_unknown (h : m.Conforms .unknown v) : v = .null := by
  cases h; rfl

/-- It is enough that every entry is of its declared kind. -/
theorem entity_of_entries {type : String} {attributes : List (String × Value)}
    (h : ∀ entry ∈ attributes, ∀ kind, m.attribute? type entry.1 = some kind →
      m.Conforms kind.type entry.2) : m.Conforms (.entity type) (.entity type attributes) := by
  refine .entity fun name kind v declared hv => ?_
  obtain ⟨before, after, rfl, -⟩ := List.lookup_eq_some_iff.1 hv
  exact h (name, v) (by simp) kind declared

theorem literal (l : Literal) : m.Conforms l.type l.value := by
  cases l <;> constructor

/-- Reading a declared attribute. -/
theorem readAttribute {t' : ExprType} {name : String} {w : Value} (h : m.Conforms t v)
    (typed : m.attributeType? t name = some t') (read : v.readAttribute name = .ok w) :
    m.Conforms t' w := by
  unfold Metamodel.attributeType? at typed
  cases h with
  | entity declared =>
    simp only [Value.readAttribute] at read
    simp only [ExprType.entityName?, Option.bind_some, Option.map_eq_some_iff] at typed
    obtain ⟨kind, hkind, rfl⟩ := typed
    split at read
    · next hfind => cases read; exact declared name kind _ hkind hfind
    · cases read
  | null => cases read
  | _ => simp [ExprType.entityName?] at typed

theorem readPath {t' : ExprType} {path : List String} {w : Value} (h : m.Conforms t v)
    (typed : m.pathType? t path = some t') (read : Expr.readPath v path = .ok w) :
    m.Conforms t' w := by
  induction path generalizing t v with
  | nil =>
    cases typed
    cases read
    exact h
  | cons name path ih =>
    simp only [Metamodel.pathType?, List.foldlM_cons, Option.bind_eq_bind,
      Option.bind_eq_some_iff] at typed
    obtain ⟨mid, hmid, typed⟩ := typed
    rw [Expr.readPath, List.foldlM_cons, bind_ok_iff] at read
    obtain ⟨next, hnext, read⟩ := read
    exact ih (h.readAttribute hmid hnext) typed read

/-- A value of a type that accepts numbers only is no string. -/
theorem isString_eq_false (h : m.Conforms t v) (other : t ≠ .string) : v.isString = false := by
  cases h <;> first | rfl | exact absurd rfl other

variable {a b : Value}

theorem arithmetic {op : BinaryOp} (h : Value.arithmetic op a b = .ok v) :
    m.Conforms .numeric v := by
  unfold Value.arithmetic at h
  split at h
  · unfold Value.intOperation at h
    split at h <;> try split at h
    all_goals first | (cases h; exact .int _) | cases h
  · split at h <;> cases h
    exact .float _

theorem logical {op : BinaryOp} (h : Value.logical op a b = .ok v) : m.Conforms .boolean v := by
  unfold Value.logical at h
  split at h <;> cases h
  exact .bool _

theorem comparison {op : BinaryOp} (h : Value.comparison op a b = .ok v) :
    m.Conforms .boolean v := by
  unfold Value.comparison at h
  split at h
  · cases h; exact .bool _
  · split at h <;> cases h
    exact .bool _

/-- Sums of texts are texts, which the type of a sum does not tell. -/
theorem binary {op : BinaryOp} (h : Value.binary op a b = .ok v)
    (numbers : op = .add → a.isString = false ∧ b.isString = false) :
    m.Conforms op.resultType v := by
  cases op with
  | and => exact logical h
  | or => exact logical h
  | eq => cases h; exact .bool _
  | ne => cases h; exact .bool _
  | lt => exact comparison h
  | gt => exact comparison h
  | le => exact comparison h
  | ge => exact comparison h
  | concat => cases h; exact .string _
  | add =>
    obtain ⟨ha, hb⟩ := numbers rfl
    refine arithmetic (?_ : Value.arithmetic .add a b = .ok v)
    simpa [Value.binary, ha, hb] using h
  | sub => exact arithmetic h
  | mul => exact arithmetic h
  | div => exact arithmetic h
  | mod => exact arithmetic h

theorem unary {op : UnaryOp} (h : Value.unary op a = .ok v) : m.Conforms op.resultType v := by
  unfold Value.unary at h
  split at h <;> cases h <;> constructor

theorem applyTo {fn : ScalarFn} (h : fn.applyTo a = .ok v) : m.Conforms fn.resultType v := by
  unfold ScalarFn.applyTo at h
  split at h <;> cases h <;> constructor

end Metamodel.Conforms

/-- A sum that is no concatenation adds no texts. -/
theorem QueryForm.ne_string_of_resolveOp {s t : ExprType} (h : resolveOp .add s t = .add) :
    s ≠ .string ∧ t ≠ .string := by
  unfold resolveOp at h
  split at h
  · cases h
  · next notText => simpa using notText

/-- One conforming entity for each source, or null. -/
def Metamodel.ConformingRow (m : Metamodel) (sources : List String) (row : SourceRow) : Prop :=
  List.Forall₂ (fun entity v => m.Conforms (.entity entity) v) sources row

theorem Metamodel.ConformingRow.of_getElem? {m : Metamodel} {sources : List String}
    {row : SourceRow} (h : m.ConformingRow sources row) {id : Nat} {entity : String} {v : Value}
    (known : sources[id]? = some entity) (hv : row[id]? = some v) :
    m.Conforms (.entity entity) v := by
  obtain ⟨hi, rfl⟩ := List.getElem?_eq_some_iff.1 known
  obtain ⟨hj, rfl⟩ := List.getElem?_eq_some_iff.1 hv
  exact List.Forall₂.get h hi hj

namespace Expr

/-- A conditional has the type of its first arm if that is known, so where the value of an
expression comes out of a second arm, this one has to have the type too. -/
def KeepsType (row : SourceRow) : Expr → Prop
  | field base _ _ => KeepsType row base
  | binary op l r => op = .add → KeepsType row l ∧ KeepsType row r
  | conditional c a b =>
    (c.value row = .ok (.bool true) → KeepsType row a) ∧
    (c.value row = .ok (.bool false) →
      (b.type = .unknown ∨ b.type = (conditional c a b).type) ∧ KeepsType row b)
  | _ => True

variable {m : Metamodel} {row : SourceRow} {e c a b : Expr} {v : Value}

theorem conforms_first (h : m.Conforms a.type v) : m.Conforms (conditional c a b).type v := by
  simp only [Expr.type]
  split
  · next unknown =>
    rw [unknown] at h
    rw [h.null_of_unknown]
    exact .null _
  · exact h

theorem conforms_second (agree : b.type = .unknown ∨ b.type = (conditional c a b).type)
    (h : m.Conforms b.type v) : m.Conforms (conditional c a b).type v := by
  rcases agree with unknown | same
  · rw [unknown] at h
    rw [h.null_of_unknown]
    exact .null _
  · exact same ▸ h

theorem type_second (agree : a.type.agrees b.type) :
    b.type = .unknown ∨ b.type = (conditional c a b).type := by
  simp only [ExprType.agrees, Bool.or_eq_true, decide_eq_true_eq] at agree
  simp only [Expr.type]
  split
  · exact .inr rfl
  · next known =>
    rcases agree with (same | unknown) | unknown
    · exact .inr same.symm
    · exact absurd unknown known
    · exact .inl unknown

/-- Where all arms agree it does not matter which of them is taken. -/
theorem AllArmsAgree.keepsType (agree : e.AllArmsAgree) (row : SourceRow) : e.KeepsType row := by
  fun_induction KeepsType row e with
  | case1 base _ _ ih => exact ih (allArmsAgree_field.1 agree)
  | case2 op l r ihl ihr =>
    obtain ⟨left, right⟩ := allArmsAgree_binary.1 agree
    exact fun _ => ⟨ihl left, ihr right⟩
  | case3 c a b iha ihb =>
    obtain ⟨arms, -, whenTrue, whenFalse⟩ := allArmsAgree_conditional.1 agree
    exact ⟨fun _ => iha whenTrue, fun _ => ⟨type_second arms, ihb whenFalse⟩⟩
  | case4 => trivial

end Expr

namespace Expr.Formed

variable {m : Metamodel} {sources : List String} {row : SourceRow}

/-- The value of a formed expression is of its type, if the arms that it comes out of are. -/
theorem conforms_of_keepsType {e : Expr} (h : Formed m sources e)
    (hrow : m.ConformingRow sources row) {v : Value} (keeps : e.KeepsType row)
    (hv : e.value row = .ok v) : m.Conforms e.type v := by
  induction h generalizing v with
  | constant l =>
    cases hv
    exact .literal l
  | parameter literal =>
    cases hv
    obtain ⟨l, hl⟩ := Option.isSome_iff_exists.1 literal
    simp only [Expr.type, hl, Option.map_some, Option.getD_some]
    exact Literal.value_of_ofValue? hl ▸ .literal l
  | @source id entity known =>
    rw [value] at hv
    obtain ⟨w, hw⟩ : ∃ w, row[id]? = some w := by
      cases hr : row[id]? with
      | none => simp [hr] at hv
      | some w => exact ⟨w, rfl⟩
    rw [hw] at hv
    cases hv
    exact hrow.of_getElem? known hw
  | field _ _ typed _ ih =>
    obtain ⟨b, hb, hv⟩ := value_field.1 hv
    exact (ih keeps hb).readPath typed hv
  | @binary op l r _ _ resolved admitted ihl ihr =>
    obtain ⟨a, ha, hv⟩ := value_binary.1 hv
    split at hv
    · next alone =>
      subst hv
      unfold decidesAlone at alone
      split at alone
      · exact .bool _
      · exact .bool _
      · cases alone
    · obtain ⟨b, hb, hv⟩ := hv
      refine .binary hv fun hop => ?_
      obtain ⟨keepsLeft, keepsRight⟩ := keeps hop
      subst hop
      have notText := QueryForm.ne_string_of_resolveOp resolved
      exact ⟨(ihl keepsLeft ha).isString_eq_false notText.1,
        (ihr keepsRight hb).isString_eq_false notText.2⟩
  | unary _ _ _ =>
    obtain ⟨a, -, hv⟩ := value_unary.1 hv
    exact .unary hv
  | conditional _ _ _ _ _ _ _ iha ihb =>
    rcases value_conditional.1 hv with ⟨hc, hv⟩ | ⟨hc, hv⟩
    · exact conforms_first (iha (keeps.1 hc) hv)
    · obtain ⟨agree, keepsFalse⟩ := keeps.2 hc
      exact conforms_second agree (ihb keepsFalse hv)
  | tuple _ _ _ _ =>
    obtain ⟨vs, -, rfl⟩ := value_tuple.1 hv
    exact .tuple _
  | apply _ _ _ =>
    obtain ⟨a, vs, -, hv⟩ := value_apply.1 hv
    exact .applyTo hv

/-- The value of a formed expression whose arms agree is of its type. -/
theorem conforms {e : Expr} (h : Formed m sources e) (hrow : m.ConformingRow sources row)
    (agree : e.AllArmsAgree) {v : Value} (hv : e.value row = .ok v) : m.Conforms e.type v :=
  h.conforms_of_keepsType hrow (agree.keepsType row) hv

end Expr.Formed
end EntityQuery
