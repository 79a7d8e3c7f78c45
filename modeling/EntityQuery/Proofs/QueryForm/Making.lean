import EntityQuery.Proofs.Expr.Formed
import EntityQuery.Proofs.QueryForm.Meanings

/-! What one operation makes. A supported operation has supported inputs, and it makes one node of
what these stand for, or picks a component of a tuple. So whatever a trace translates to is made
operation by operation of its bindings: what each operation keeps holds of all that it translates
to. -/
namespace EntityQuery
namespace QueryForm

variable {m : Metamodel} {bindings : List Binding}

/-- What an operation makes of the expressions that it reads, and what they were checked for. -/
inductive Makes (m : Metamodel) (bindings : List Binding) (read : Nat → Expr) : Op → Expr → Prop
  | given {index : Nat} {e : Expr} (bound : bindings[index]? = some (.element e)) :
    Makes m bindings read (.param index) e
  | constant {v : Value} {l : Literal} (literal : Literal.ofValue? v = some l) :
    Makes m bindings read (.const v) (.constant l)
  | capture {name : String} {v : Value} (literal : (Literal.ofValue? v).isSome) :
    Makes m bindings read (.capture name v) (.parameter name v)
  | field {base : Nat} {name : String} {type : ExprType}
    (typed : m.attributeType? (read base).type name = some type) :
    Makes m bindings read (.field base name) ((read base).navigate name type)
  | nullTest {op : BinaryOp} {left right operand : Nat} (equality : op.isEquality)
    (null : operand = left ∧ (read right).isNullLiteral ∨
      operand = right ∧ (read left).isNullLiteral) :
    Makes m bindings read (.binary op left right) (.unary (nullTest op) (read operand))
  | binary {op : BinaryOp} {left right : Nat}
    (admitted : admits (resolveOp op (read left).type (read right).type) (read left).type
      (read right).type) :
    Makes m bindings read (.binary op left right)
      (.binary (resolveOp op (read left).type (read right).type) (read left) (read right))
  | unary {op : UnaryOp} {operand : Nat} (admitted : admitsUnary op (read operand).type) :
    Makes m bindings read (.unary op operand) (.unary op (read operand))
  | branch {c a b : Nat} (boolean : ExprType.boolean.accepts (read c).type)
    (singleTrue : (read a).type.isPlural = false) (singleFalse : (read b).type.isPlural = false) :
    Makes m bindings read (.branch c a b) (.conditional (read c) (read a) (read b))
  | tuple {items : List Nat} :
    Makes m bindings read (.tuple items) (Expr.tupleOf (items.map read))
  | component {base index : Nat} {c : Expr} (part : (read base).element? index = some c) :
    Makes m bindings read (.element base index) c
  | apply {fn : ScalarFn} {arguments : List Nat}
    (accepted : ∀ id ∈ arguments, fn.argumentType.accepts (read id).type) :
    Makes m bindings read (.call (.known fn) arguments) (.apply fn (arguments.map read))

/-- A test for null is one of an operand. -/
theorem mem_operands_of_null {left right operand : Nat} {p q : Prop}
    (null : operand = left ∧ p ∨ operand = right ∧ q) : operand ∈ [left, right] := by
  rcases null with ⟨rfl, -⟩ | ⟨rfl, -⟩
  · exact List.mem_cons_self
  · exact List.mem_cons_of_mem _ List.mem_cons_self

/-- Only what the operation reads matters. -/
theorem Makes.congr {read read' : Nat → Expr} {op : Op} {e : Expr}
    (h : Makes m bindings read op e) (same : ∀ id ∈ op.inputs, read id = read' id) :
    Makes m bindings read' op e := by
  cases h with
  | given bound => exact .given bound
  | constant literal => exact .constant literal
  | capture literal => exact .capture literal
  | field typed =>
    rw [same _ List.mem_cons_self] at typed ⊢
    exact .field typed
  | nullTest equality null =>
    have left := same _ List.mem_cons_self
    have right := same _ (List.mem_cons_of_mem _ List.mem_cons_self)
    rw [left, right] at null
    rcases null with ⟨rfl, null⟩ | ⟨rfl, null⟩
    · exact left ▸ .nullTest equality (.inl ⟨rfl, null⟩)
    · exact right ▸ .nullTest equality (.inr ⟨rfl, null⟩)
  | binary admitted =>
    rw [same _ List.mem_cons_self, same _ (List.mem_cons_of_mem _ List.mem_cons_self)]
      at admitted ⊢
    exact .binary admitted
  | unary admitted =>
    rw [same _ List.mem_cons_self] at admitted ⊢
    exact .unary admitted
  | branch boolean singleTrue singleFalse =>
    simp only [Op.inputs, List.forall_mem_cons] at same
    obtain ⟨c, a, b, -⟩ := same
    rw [c] at boolean ⊢
    rw [a] at singleTrue ⊢
    rw [b] at singleFalse ⊢
    exact .branch boolean singleTrue singleFalse
  | @tuple items =>
    have reads : items.map read = items.map read' := List.map_congr_left same
    exact reads ▸ .tuple
  | component part => exact .component (same _ List.mem_cons_self ▸ part)
  | @apply fn arguments accepted =>
    have reads : arguments.map read = arguments.map read' := List.map_congr_left same
    exact reads ▸ .apply fun id hid => same id hid ▸ accepted id hid

section Operations

variable {e l r c a b : Expr} {items : List Expr} {known : List Meaning}

/-- Reading an attribute that the metamodel has. -/
theorem field_supported {name : String} (h : (field m e name).isUnsupported = false) :
    e.isUnsupported = false ∧ ∃ type, m.attributeType? e.type name = some type ∧
      field m e name = e.navigate name type := by
  unfold field at *
  split at h
  · next unsupported => simp [unsupported] at h
  next supported =>
  rw [if_neg supported]
  refine ⟨by simpa using supported, ?_⟩
  split at h
  · next entity entityType =>
    split at h
    · next kind has =>
      refine ⟨kind.type, ?_, rfl⟩
      simp [Metamodel.attributeType?, entityType, ExprType.entityName?, has]
    · cases h
  · cases h

/-- A null test of the operand that is no null literal, or the resolved operator on types that it is
defined on. -/
theorem binary_supported {op : BinaryOp} (h : (binary op l r).isUnsupported = false) :
    l.isUnsupported = false ∧ r.isUnsupported = false ∧
      ((op.isEquality ∧ r.isNullLiteral ∧ binary op l r = .unary (nullTest op) l) ∨
        (op.isEquality ∧ l.isNullLiteral ∧ binary op l r = .unary (nullTest op) r) ∨
        (admits (resolveOp op l.type r.type) l.type r.type ∧
          binary op l r = .binary (resolveOp op l.type r.type) l r)) := by
  unfold binary at *
  split at h
  · next unsupported => simp [unsupported] at h
  split at h
  · next unsupported => simp [unsupported] at h
  next left right =>
  rw [if_neg left, if_neg right]
  refine ⟨by simpa using left, by simpa using right, ?_⟩
  split at h
  · next null =>
    rw [if_pos null]
    rw [Bool.and_eq_true] at null
    exact .inl ⟨null.1, null.2, rfl⟩
  next notRight =>
  rw [if_neg notRight]
  split at h
  · next null =>
    rw [if_pos null]
    rw [Bool.and_eq_true] at null
    exact .inr (.inl ⟨null.1, null.2, rfl⟩)
  next notLeft =>
  rw [if_neg notLeft]
  dsimp only at h ⊢
  split at h
  · next admitted => exact .inr (.inr ⟨admitted, if_pos admitted⟩)
  · cases h

theorem unary_supported {op : UnaryOp} (h : (unary op e).isUnsupported = false) :
    e.isUnsupported = false ∧ admitsUnary op e.type ∧ unary op e = .unary op e := by
  unfold unary at *
  split at h
  · next unsupported => simp [unsupported] at h
  next supported =>
  rw [if_neg supported]
  split at h
  · next admitted => exact ⟨by simpa using supported, admitted, if_pos admitted⟩
  · cases h

theorem supported_of_mem (none : items.find? Expr.isUnsupported = none) (he : e ∈ items) :
    e.isUnsupported = false := by
  simpa using List.find?_eq_none.1 none e he

/-- A list whose first unsupported member would stand for all has none. -/
theorem all_supported {rest : Expr} (h : (match items.find? Expr.isUnsupported with
    | some e => e
    | none => rest).isUnsupported = false) : items.find? Expr.isUnsupported = none := by
  split at h
  · next e found => simp [List.find?_some found] at h
  · assumption

theorem branch_supported (h : (branch c a b).isUnsupported = false) :
    (∀ e ∈ [c, a, b], e.isUnsupported = false) ∧ ExprType.boolean.accepts c.type ∧
      a.type.isPlural = false ∧ b.type.isPlural = false ∧ branch c a b = .conditional c a b := by
  have none := all_supported h
  unfold branch at *
  rw [none] at h ⊢
  dsimp only at h ⊢
  refine ⟨fun _ => supported_of_mem none, ?_⟩
  split at h
  · cases h
  next boolean =>
  rw [if_neg boolean]
  split at h
  · cases h
  next single =>
  rw [if_neg single]
  simp only [Bool.or_eq_true, not_or, Bool.not_eq_true] at single
  exact ⟨by simpa using boolean, single.1, single.2, rfl⟩

theorem tuple_supported (h : (tuple items).isUnsupported = false) :
    (∀ e ∈ items, e.isUnsupported = false) ∧ tuple items = Expr.tupleOf items := by
  unfold tuple at *
  cases found : items.find? Expr.isUnsupported with
  | some e =>
    rw [found] at h
    simp [List.find?_some found] at h
  | none => exact ⟨fun _ => supported_of_mem found, rfl⟩

theorem element_supported {index : Nat} (h : (element e index).isUnsupported = false) :
    e.isUnsupported = false ∧ e.element? index = some (element e index) := by
  cases e with
  | tuple es nesting =>
    unfold element at *
    dsimp only at *
    cases found : (Expr.tuple es nesting).element? index with
    | none =>
      rw [found] at h
      cases h
    | some c => exact ⟨rfl, rfl⟩
  | _ => cases h

theorem apply_supported {fn : ScalarFn} (h : (apply fn items).isUnsupported = false) :
    (∀ e ∈ items, e.isUnsupported = false) ∧ (∀ e ∈ items, fn.argumentType.accepts e.type) ∧
      apply fn items = .apply fn items := by
  have none := all_supported h
  unfold apply at *
  rw [none] at h ⊢
  dsimp only at h ⊢
  refine ⟨fun _ => supported_of_mem none, ?_⟩
  split at h
  · next accepted => exact ⟨List.all_eq_true.1 accepted, if_pos accepted⟩
  · cases h

end Operations

/-- A stream is no expression. -/
theorem not_supported_streamFrom (e : Expr) : (streamFrom e).asExpr.isUnsupported ≠ false := by
  unfold streamFrom
  split <;> exact Bool.false_ne_true.symm

theorem not_supported_streamEntity (entity : String) (giver : Meaning) :
    (streamEntity m entity giver).asExpr.isUnsupported ≠ false := by
  unfold streamEntity
  split
  · split <;> exact Bool.false_ne_true.symm
  · exact Bool.false_ne_true.symm

/-- A supported operation has supported inputs and makes something of them. -/
theorem makes_of_supported {known : List Meaning} {op : Op}
    (h : (meaning m bindings known op).asExpr.isUnsupported = false) :
    (∀ id ∈ op.inputs, (meaning.exprOf known id).isUnsupported = false) ∧
      Makes m bindings (meaning.exprOf known) op (meaning m bindings known op).asExpr := by
  have each (items : List Nat) (all : ∀ e ∈ items.map (meaning.exprOf known),
      e.isUnsupported = false) : ∀ id ∈ items, (meaning.exprOf known id).isUnsupported = false :=
    fun id hid => all _ (List.mem_map_of_mem hid)
  cases op with
  | param index =>
    refine ⟨List.forall_mem_nil _, ?_⟩
    rw [meaning] at h ⊢
    cases bound : bindings[index]? with
    | none =>
      rw [bound] at h
      cases h
    | some binding =>
      rw [bound] at h
      cases binding with
      | element e => exact .given bound
      | provider => cases h
  | const v =>
    refine ⟨List.forall_mem_nil _, ?_⟩
    rw [meaning, Meaning.asExpr] at h ⊢
    unfold constant at *
    split at h
    · next l literal => exact .constant literal
    · cases h
  | capture name v =>
    refine ⟨List.forall_mem_nil _, ?_⟩
    rw [meaning, Meaning.asExpr] at h ⊢
    unfold capture at *
    split at h
    · next l literal => exact .capture (by simp [literal])
    · cases h
  | field base name =>
    rw [meaning, Meaning.asExpr] at h ⊢
    obtain ⟨supported, type, typed, made⟩ := field_supported h
    exact ⟨List.forall_mem_singleton.2 supported, made ▸ .field typed⟩
  | binary op l r =>
    rw [meaning, Meaning.asExpr] at h ⊢
    obtain ⟨left, right, made⟩ := binary_supported h
    refine ⟨List.forall_mem_cons.2 ⟨left, List.forall_mem_singleton.2 right⟩, ?_⟩
    rcases made with ⟨equality, null, made⟩ | ⟨equality, null, made⟩ | ⟨admitted, made⟩
    · exact made ▸ .nullTest equality (.inl ⟨rfl, null⟩)
    · exact made ▸ .nullTest equality (.inr ⟨rfl, null⟩)
    · exact made ▸ .binary admitted
  | unary op operand =>
    rw [meaning, Meaning.asExpr] at h ⊢
    obtain ⟨supported, admitted, made⟩ := unary_supported h
    exact ⟨List.forall_mem_singleton.2 supported, made ▸ .unary admitted⟩
  | branch c a b =>
    rw [meaning, Meaning.asExpr] at h ⊢
    obtain ⟨supported, boolean, singleTrue, singleFalse, made⟩ := branch_supported h
    exact ⟨each [c, a, b] supported, made ▸ .branch boolean singleTrue singleFalse⟩
  | tuple items =>
    rw [meaning, Meaning.asExpr] at h ⊢
    obtain ⟨supported, made⟩ := tuple_supported h
    exact ⟨each _ supported, made ▸ .tuple⟩
  | element base index =>
    obtain ⟨supported, part⟩ := element_supported h
    exact ⟨List.forall_mem_singleton.2 supported, .component part⟩
  | call callee arguments =>
    cases callee with
    | known fn =>
      rw [meaning, Meaning.asExpr] at h ⊢
      obtain ⟨supported, accepted, made⟩ := apply_supported h
      exact ⟨each _ supported, made ▸ .apply fun id hid => accepted _ (List.mem_map_of_mem hid)⟩
    | external f => cases h
  | streamFrom collection => exact absurd h (not_supported_streamFrom _)
  | streamEntity provider entity => exact absurd h (not_supported_streamEntity entity _)

/-- What an operation streams: the instances of an entity type, or a collection that is reached from
a source. -/
inductive Streams (m : Metamodel) (read : Nat → Expr) : Op → Source → Prop
  | entity {provider : Nat} {entity : String} (known : m.has entity) :
    Streams m read (.streamEntity provider entity) (.root entity)
  | collection {base id : Nat} {start entity : String} {path : List String}
    (reached : read base = .field (.source id start) path (.collection entity)) :
    Streams m read (.streamFrom base) (.path id path entity)

theorem streams_of_meaning {known : List Meaning} {op : Op} {source : Source}
    (h : meaning m bindings known op = .stream source) :
    Streams m (meaning.exprOf known) op source := by
  cases op with
  | streamEntity provider entity =>
    rw [meaning] at h
    unfold streamEntity at h
    split at h
    · split at h <;> cases h
      next known => exact .entity known
    · cases h
  | streamFrom base =>
    rw [meaning] at h
    unfold streamFrom at h
    split at h <;> cases h
    next reached => exact .collection reached
  | param index =>
    rw [meaning] at h
    split at h <;> cases h
  | call callee arguments => cases callee <;> cases h
  | _ => cases h

end QueryForm

open QueryForm

namespace Trace

variable {m : Metamodel} {bindings : List Binding} {t : Trace}

/-- What a supported operation of a trace makes of earlier ones. -/
theorem makes {id : Nat} (supported : (t.reading m bindings id).isUnsupported = false) :
    ∃ op, t.ops[id]? = some op ∧
      (∀ i ∈ op.inputs, i < id ∧ (t.reading m bindings i).isUnsupported = false) ∧
      Makes m bindings (t.reading m bindings) op (t.reading m bindings id) := by
  cases found : (meanings m bindings t.ops)[id]? with
  | none => simp [reading, meaning.exprOf, meaning.meaningOf, found, Meaning.unsupported,
      Meaning.asExpr, Expr.isUnsupported] at supported
  | some k =>
    have read : t.reading m bindings id = k.asExpr := by
      simp [reading, meaning.exprOf, meaning.meaningOf, found]
    rw [getElem?_meanings] at found
    obtain ⟨op, recorded, rfl⟩ := Option.map_eq_some_iff.1 found
    rw [read] at supported ⊢
    obtain ⟨inputs, made⟩ := makes_of_supported supported
    have whole (i : Nat) (hi : i ∈ op.inputs) :
        meaning.exprOf ((meanings m bindings t.ops).take id) i = t.reading m bindings i :=
      exprOf_take (inputs i hi)
    refine ⟨op, recorded, fun i hi => ⟨lt_of_supported_take (inputs i hi), ?_⟩, made.congr whole⟩
    exact whole i hi ▸ inputs i hi

/-- What holds of whatever a supported operation makes of expressions of which it holds. -/
theorem reading_induction {P : Expr → Prop}
    (step : ∀ op ∈ t.ops, ∀ e, e.isUnsupported = false →
      Makes m bindings (t.reading m bindings) op e →
      (∀ i ∈ op.inputs, (t.reading m bindings i).isUnsupported = false ∧
        P (t.reading m bindings i)) → P e)
    {id : Nat} (supported : (t.reading m bindings id).isUnsupported = false) :
    P (t.reading m bindings id) := by
  induction id using Nat.strongRecOn with
  | ind id ih =>
    obtain ⟨op, recorded, inputs, made⟩ := t.makes supported
    refine step op (List.mem_of_getElem? recorded) _ supported made fun i hi => ?_
    obtain ⟨earlier, known⟩ := inputs i hi
    exact ⟨known, ih i earlier known⟩

/-- What holds of whatever a supported operation makes holds of the query form. -/
theorem queryForm_induction {P : Expr → Prop} {e : Expr}
    (form : t.queryForm m bindings = .expr e) (supported : e.isUnsupported = false)
    (step : ∀ op ∈ t.ops, ∀ e, e.isUnsupported = false →
      Makes m bindings (t.reading m bindings) op e →
      (∀ i ∈ op.inputs, (t.reading m bindings i).isUnsupported = false ∧
        P (t.reading m bindings i)) → P e) : P e := by
  have result := (queryForm_expr form supported).2
  rw [← result] at supported ⊢
  exact t.reading_induction step supported

/-- A query form that is a source is what the result of the trace streams. -/
theorem queryForm_join {source : Source} (h : t.queryForm m bindings = .join source) :
    t.externalCalls = [] ∧
      ∃ op, t.ops[t.result]? = some op ∧ Streams m (t.reading m bindings) op source := by
  unfold queryForm at h
  cases calls : t.externalCalls with
  | cons _ _ =>
    rw [calls] at h
    cases h
  | nil =>
    rw [calls] at h
    dsimp only at h
    split at h <;> cases h
    next result =>
    rw [getElem?_meanings] at result
    obtain ⟨op, recorded, stands⟩ := Option.map_eq_some_iff.1 result
    refine ⟨rfl, op, recorded, ?_⟩
    cases streams_of_meaning stands with
    | entity known => exact .entity known
    | @collection base _ _ _ _ reached =>
      have known : (meaning.exprOf ((meanings m bindings t.ops).take t.result) base).isUnsupported =
          false := reached ▸ rfl
      exact .collection ((exprOf_take known).symm.trans reached)

end Trace
end EntityQuery
