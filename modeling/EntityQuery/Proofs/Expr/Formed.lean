import EntityQuery.Expr.Walk
import EntityQuery.QueryForm
import Mathlib.Data.List.Basic

/-! Expressions as lambdas translate to them. `Translated` is what interpretation reaches from the
sources of a query; `Formed` is the shape that every such expression has: operators on types they
are defined on, paths that the metamodel has, flat tuples whose nesting fits their columns. -/
namespace EntityQuery

namespace Metamodel

/-- The type that an attribute has when it is read from a value of a type. -/
def attributeType? (m : Metamodel) (t : ExprType) (name : String) : Option ExprType :=
  t.entityName?.bind fun entity => (m.attribute? entity name).map AttributeKind.type

/-- The type at the end of a path. -/
def pathType? (m : Metamodel) (t : ExprType) (path : List String) : Option ExprType :=
  path.foldlM m.attributeType? t

end Metamodel

namespace Expr

def isTuple : Expr → Bool
  | tuple _ _ => true
  | _ => false

/-- What a path can start at: navigation from a navigation makes the path longer instead. -/
def isOrigin : Expr → Bool
  | source _ _ | conditional _ _ _ => true
  | _ => false

/-- The entity types of the sources are given in order. -/
inductive Formed (m : Metamodel) (sources : List String) : Expr → Prop
  | constant (l : Literal) : Formed m sources (.constant l)
  | parameter {name : String} {v : Value} (literal : (Literal.ofValue? v).isSome) :
    Formed m sources (.parameter name v)
  | source {id : Nat} {entity : String} (known : sources[id]? = some entity) :
    Formed m sources (.source id entity)
  | field {base : Expr} {path : List String} {type : ExprType} (formed : Formed m sources base)
    (origin : base.isOrigin) (typed : m.pathType? base.type path = some type) (long : path ≠ []) :
    Formed m sources (.field base path type)
  | binary {op : BinaryOp} {l r : Expr} (left : Formed m sources l) (right : Formed m sources r)
    (resolved : QueryForm.resolveOp op l.type r.type = op)
    (admitted : QueryForm.admits op l.type r.type) : Formed m sources (.binary op l r)
  | unary {op : UnaryOp} {e : Expr} (operand : Formed m sources e)
    (admitted : op = .isNull ∨ op = .isNotNull ∨ QueryForm.admitsUnary op e.type) :
    Formed m sources (.unary op e)
  | conditional {c a b : Expr} (condition : Formed m sources c) (whenTrue : Formed m sources a)
    (whenFalse : Formed m sources b) (boolean : ExprType.boolean.accepts c.type)
    (singleTrue : a.type.isPlural = false) (singleFalse : b.type.isPlural = false) :
    Formed m sources (.conditional c a b)
  | tuple {es : List Expr} {parts : List Nesting} (members : ∀ e ∈ es, Formed m sources e)
    (flat : ∀ e ∈ es, e.isTuple = false) (fits : Nesting.totalWidth parts = es.length) :
    Formed m sources (.tuple es (.group parts))
  | apply {fn : ScalarFn} {es : List Expr} (arguments : ∀ e ∈ es, Formed m sources e)
    (accepted : ∀ e ∈ es, fn.argumentType.accepts e.type) : Formed m sources (.apply fn es)

end Expr

/-- What interpretation reaches: the sources, what a lambda translates to over what was reached
before, and the pair that a join makes. -/
inductive Translated (m : Metamodel) (sources : List String) : Expr → Prop
  | source {id : Nat} {entity : String} (known : sources[id]? = some entity) :
    Translated m sources (.source id entity)
  | lambda {t : Trace} {bindings : List Binding} {e : Expr}
    (reached : ∀ b, Binding.element b ∈ bindings → Translated m sources b)
    (form : t.queryForm m bindings = .expr e) (supported : e.isUnsupported = false) :
    Translated m sources e
  | pair {e : Expr} {id : Nat} {entity : String} (element : Translated m sources e)
    (known : sources[id]? = some entity) :
    Translated m sources (.tupleOf [e, .source id entity])

@[simp] theorem Literal.entityName?_type (l : Literal) : l.type.entityName? = none := by
  cases l <;> rfl

@[simp] theorem BinaryOp.entityName?_resultType (op : BinaryOp) :
    op.resultType.entityName? = none := by
  cases op <;> rfl

@[simp] theorem UnaryOp.entityName?_resultType (op : UnaryOp) :
    op.resultType.entityName? = none := by
  cases op <;> rfl

@[simp] theorem ScalarFn.entityName?_resultType (fn : ScalarFn) :
    fn.resultType.entityName? = none := by
  cases fn <;> rfl

namespace Expr

theorem columns_eq {e : Expr} (h : e.isTuple = false) : e.columns = [e] := by
  cases e <;> first | rfl | cases h

theorem nesting_eq {e : Expr} (single : e.isTuple = false) : e.nesting = .leaf := by
  cases e <;> first | rfl | cases single

/-- If each nesting has a leaf for each column, so do all together. -/
theorem totalWidth_map_nesting {items : List Expr}
    (fit : ∀ e ∈ items, e.nesting.width = e.columns.length) :
    Nesting.totalWidth (items.map nesting) = (items.flatMap columns).length := by
  induction items with
  | nil => rfl
  | cons e items ih =>
    obtain ⟨first, others⟩ := List.forall_mem_cons.1 fit
    rw [List.map_cons, Nesting.totalWidth, first, ih others, List.flatMap_cons, List.length_append]

theorem isTuple_of_isPlural {e : Expr} (h : e.type.isPlural = false) : e.isTuple = false := by
  cases e <;> first | rfl | cases h

theorem mem_nodes_self (e : Expr) : e ∈ e.nodes := by
  cases e <;> simp [nodes]

theorem mem_nodesOfAll {es : List Expr} {n : Expr} : n ∈ nodesOfAll es ↔ ∃ e ∈ es, n ∈ e.nodes := by
  induction es with
  | nil => simp [nodesOfAll]
  | cons e es ih => simp [nodesOfAll, ih]

/-- Nodes of columns are nodes of the whole. -/
theorem mem_nodes_of_mem_columns {e c n : Expr} (hc : c ∈ e.columns) (hn : n ∈ c.nodes) :
    n ∈ e.nodes := by
  cases e with
  | tuple elements nesting => exact List.mem_cons_of_mem _ (mem_nodesOfAll.2 ⟨c, hc, hn⟩)
  | _ =>
    obtain rfl := List.mem_singleton.1 hc
    exact hn

end Expr

namespace Expr.Formed

variable {m : Metamodel} {sources : List String}

/-- All nodes of a formed expression are formed. -/
theorem of_mem_nodes {e n : Expr} (h : Formed m sources e) (hn : n ∈ e.nodes) :
    Formed m sources n := by
  induction h with
  | constant => obtain rfl := List.mem_singleton.1 hn; exact .constant _
  | parameter literal => obtain rfl := List.mem_singleton.1 hn; exact .parameter literal
  | source known => obtain rfl := List.mem_singleton.1 hn; exact .source known
  | field formed origin typed long ih =>
    rcases List.mem_cons.1 hn with rfl | below
    · exact .field formed origin typed long
    · exact ih below
  | binary left right resolved admitted inLeft inRight =>
    rcases List.mem_cons.1 hn with rfl | below
    · exact .binary left right resolved admitted
    · exact (List.mem_append.1 below).elim inLeft inRight
  | unary operand admitted ih =>
    rcases List.mem_cons.1 hn with rfl | below
    · exact .unary operand admitted
    · exact ih below
  | conditional c a b boolean singleTrue singleFalse inCondition inTrue inFalse =>
    rcases List.mem_cons.1 hn with rfl | below
    · exact .conditional c a b boolean singleTrue singleFalse
    · rcases List.mem_append.1 below with above | below
      · exact (List.mem_append.1 above).elim inCondition inTrue
      · exact inFalse below
  | tuple members flat fits ih =>
    rcases List.mem_cons.1 hn with rfl | below
    · exact .tuple members flat fits
    · obtain ⟨e, he, below⟩ := mem_nodesOfAll.1 below
      exact ih e he below
  | apply arguments accepted ih =>
    rcases List.mem_cons.1 hn with rfl | below
    · exact .apply arguments accepted
    · obtain ⟨e, he, below⟩ := mem_nodesOfAll.1 below
      exact ih e he below

/-- Columns of a formed expression are formed, and none is a tuple. -/
theorem of_mem_columns {e c : Expr} (h : Formed m sources e) (hc : c ∈ e.columns) :
    Formed m sources c ∧ c.isTuple = false := by
  cases h with
  | tuple members flat _ => exact ⟨members c hc, flat c hc⟩
  | constant => obtain rfl := List.mem_singleton.1 hc; exact ⟨.constant _, rfl⟩
  | parameter h => obtain rfl := List.mem_singleton.1 hc; exact ⟨.parameter h, rfl⟩
  | source h => obtain rfl := List.mem_singleton.1 hc; exact ⟨.source h, rfl⟩
  | field h o t l => obtain rfl := List.mem_singleton.1 hc; exact ⟨.field h o t l, rfl⟩
  | binary l r o a => obtain rfl := List.mem_singleton.1 hc; exact ⟨.binary l r o a, rfl⟩
  | unary h a => obtain rfl := List.mem_singleton.1 hc; exact ⟨.unary h a, rfl⟩
  | conditional c a b o p q =>
    obtain rfl := List.mem_singleton.1 hc; exact ⟨.conditional c a b o p q, rfl⟩
  | apply h a => obtain rfl := List.mem_singleton.1 hc; exact ⟨.apply h a, rfl⟩

/-- The nesting of a formed expression has a leaf for each column. -/
theorem width_nesting {e : Expr} (h : Formed m sources e) :
    e.nesting.width = e.columns.length := by
  cases h with
  | tuple _ _ fits => exact fits
  | _ => rfl

theorem tupleOf {items : List Expr} (h : ∀ e ∈ items, Formed m sources e) :
    Formed m sources (Expr.tupleOf items) := by
  refine .tuple (fun c hc => ?_) (fun c hc => ?_)
    (totalWidth_map_nesting fun e he => (h e he).width_nesting)
  · obtain ⟨e, he, hc⟩ := List.mem_flatMap.1 hc
    exact ((h e he).of_mem_columns hc).1
  · obtain ⟨e, he, hc⟩ := List.mem_flatMap.1 hc
    exact ((h e he).of_mem_columns hc).2

/-- A component of a formed tuple is formed. -/
theorem of_element? {e c : Expr} {index : Nat} (h : Formed m sources e)
    (hc : e.element? index = some c) : Formed m sources c := by
  cases h with
  | @tuple es parts members flat fits =>
    simp only [element?, Option.bind_eq_bind, Option.bind_eq_some_iff] at hc
    obtain ⟨part, hpart, hc⟩ := hc
    cases part with
    | leaf => exact members c (List.mem_of_getElem? hc)
    | group inner =>
      simp only [part?] at hc
      split at hc
      · obtain rfl := Option.some.inj hc
        have sub : ∀ {e}, e ∈ (es.drop (Nesting.totalWidth (parts.take index))).take
            (Nesting.totalWidth inner) → e ∈ es := fun he =>
          List.mem_of_mem_drop (List.mem_of_mem_take he)
        exact .tuple (fun e he => members e (sub he)) (fun e he => flat e (sub he))
          (by simp; omega)
      · simp at hc
  | _ => simp [element?] at hc

/-- An expression of an entity type is a navigation or can start one. -/
theorem isOrigin_of_entity {e : Expr} (h : Formed m sources e)
    (entity : e.type.entityName?.isSome) :
    e.isOrigin ∨ ∃ base path type, e = .field base path type := by
  cases h with
  | field => exact .inr ⟨_, _, _, rfl⟩
  | source => exact .inl rfl
  | conditional => exact .inl rfl
  | constant => simp [Expr.type] at entity
  | @parameter name v literal =>
    obtain ⟨l, hl⟩ := Option.isSome_iff_exists.1 literal
    simp [Expr.type, hl] at entity
  | binary => simp [Expr.type] at entity
  | unary => simp [Expr.type] at entity
  | tuple => simp [Expr.type, ExprType.entityName?] at entity
  | apply => simp [Expr.type] at entity

/-- Reading an attribute keeps the form when the metamodel has the attribute. -/
theorem navigate {base : Expr} {name : String} {type : ExprType} (h : Formed m sources base)
    (ht : m.attributeType? base.type name = some type) :
    Formed m sources (base.navigate name type) := by
  have entity : base.type.entityName?.isSome := by
    unfold Metamodel.attributeType? at ht
    cases he : base.type.entityName? <;> simp [he] at ht ⊢
  rcases h.isOrigin_of_entity entity with origin | ⟨first, path, type', rfl⟩
  · have single : Formed m sources (.field base [name] type) :=
      .field h origin (by simp [Metamodel.pathType?, ht]) (by simp)
    cases base <;> first | exact single | simp [isOrigin] at origin
  · cases h with
    | field formed origin typed long =>
      refine .field formed origin ?_ (by simp)
      rw [Metamodel.pathType?] at typed ⊢
      rw [List.foldlM_append, typed]
      simpa [Expr.type] using ht

end Expr.Formed

end EntityQuery
