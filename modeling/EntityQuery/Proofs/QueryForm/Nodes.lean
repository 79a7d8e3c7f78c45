import EntityQuery.Proofs.QueryForm.Making

/-! The nodes of what traces translate to. An operation makes one node at most and keeps nodes of
its inputs, so each node comes from a binding or from one operation of the trace. A property that
nodes other than constants and choices always have is one of all nodes, if the constants and choices
of the trace have it. -/
namespace EntityQuery

namespace Expr

variable {P : Expr → Prop} {e n : Expr}

/-- All nodes of an expression have the property. -/
def Throughout (P : Expr → Prop) (e : Expr) : Prop := ∀ n ∈ e.nodes, P n

/-- Nodes that are neither constants nor choices. -/
def isPlainNode : Expr → Bool
  | constant _ | conditional _ _ _ => false
  | _ => true

theorem isPlainNode_of_isTuple (h : e.isTuple) : e.isPlainNode := by
  cases e <;> first | rfl | cases h

theorem throughout_columns {c : Expr} (h : e.Throughout P) (hc : c ∈ e.columns) :
    c.Throughout P :=
  fun n hn => h n (mem_nodes_of_mem_columns hc hn)

theorem throughout_tuple (plain : ∀ n : Expr, n.isPlainNode → P n) {es : List Expr}
    (h : ∀ e ∈ es, e.Throughout P) (nesting : Nesting) : (tuple es nesting).Throughout P := by
  refine List.forall_mem_cons.2 ⟨plain _ rfl, fun n hn => ?_⟩
  obtain ⟨e, he, hn⟩ := mem_nodesOfAll.1 hn
  exact h e he n hn

theorem mem_nodes_navigate {name : String} {type : ExprType}
    (h : n ∈ (e.navigate name type).nodes) : n = e.navigate name type ∨ n ∈ e.nodes := by
  cases e with
  | field base path type' =>
    exact (List.mem_cons.1 h).imp_right (List.mem_cons_of_mem _)
  | _ => exact List.mem_cons.1 h

theorem mem_nodes_tupleOf {items : List Expr} (h : n ∈ (tupleOf items).nodes) :
    n = tupleOf items ∨ ∃ e ∈ items, n ∈ e.nodes := by
  refine (List.mem_cons.1 h).imp_right fun below => ?_
  obtain ⟨c, hc, hn⟩ := mem_nodesOfAll.1 below
  obtain ⟨e, he, hc⟩ := List.mem_flatMap.1 hc
  exact ⟨e, he, mem_nodes_of_mem_columns hc hn⟩

/-- A component is a member of the tuple or a tuple of some of its members. -/
theorem mem_nodes_element? {c : Expr} {index : Nat} (h : e.element? index = some c)
    (hn : n ∈ c.nodes) : n ∈ e.nodes ∨ n = c ∧ c.isTuple := by
  cases e with
  | tuple es nesting =>
    have member {k : Expr} (hk : k ∈ es) (hn : n ∈ k.nodes) : n ∈ (tuple es nesting).nodes :=
      List.mem_cons_of_mem _ (mem_nodesOfAll.2 ⟨k, hk, hn⟩)
    cases nesting with
    | leaf => cases h
    | group parts =>
      simp only [element?, Option.bind_eq_bind, Option.bind_eq_some_iff] at h
      obtain ⟨part, -, h⟩ := h
      cases part with
      | leaf => exact .inl (member (List.mem_of_getElem? h) hn)
      | group inner =>
        simp only [part?] at h
        split at h
        · obtain rfl := Option.some.inj h
          rcases List.mem_cons.1 hn with rfl | below
          · exact .inr ⟨rfl, rfl⟩
          · obtain ⟨k, hk, hn⟩ := mem_nodesOfAll.1 below
            exact .inl (member (List.mem_of_mem_drop (List.mem_of_mem_take hk)) hn)
        · cases h
  | _ => cases h

end Expr

open QueryForm

variable {m : Metamodel} {bindings : List Binding}

/-- A node of what an operation makes is one of a binding or of an input, or it is all that the
operation makes. -/
theorem QueryForm.Makes.mem_nodes {read : Nat → Expr} {op : Op} {e n : Expr}
    (h : Makes m bindings read op e) (hn : n ∈ e.nodes) :
    (∃ b, Binding.element b ∈ bindings ∧ n ∈ b.nodes) ∨ (∃ id ∈ op.inputs, n ∈ (read id).nodes) ∨
      n = e := by
  have ofOperands (operands : List Nat) (same : op.inputs = operands)
      (h : n = e ∨ ∃ o ∈ operands.map read, n ∈ o.nodes) :
      (∃ b, Binding.element b ∈ bindings ∧ n ∈ b.nodes) ∨
        (∃ id ∈ op.inputs, n ∈ (read id).nodes) ∨ n = e := by
    rcases h with rfl | ⟨o, ho, hn⟩
    · exact .inr (.inr rfl)
    · obtain ⟨id, hid, rfl⟩ := List.mem_map.1 ho
      exact .inr (.inl ⟨id, same ▸ hid, hn⟩)
  cases h with
  | given bound => exact .inl ⟨e, List.mem_of_getElem? bound, hn⟩
  | constant | capture => exact ofOperands [] rfl (.inl (List.mem_singleton.1 hn))
  | @field base _ _ _ =>
    have below := Expr.mem_nodes_navigate hn
    exact ofOperands [base] rfl (below.imp_right fun hn => ⟨_, List.mem_cons_self, hn⟩)
  | @nullTest _ left right operand _ null =>
    have side : read operand ∈ [left, right].map read :=
      List.mem_map_of_mem (mem_operands_of_null null)
    exact ofOperands [left, right] rfl ((List.mem_cons.1 hn).imp_right fun hn => ⟨_, side, hn⟩)
  | @binary _ left right _ =>
    refine ofOperands [left, right] rfl ((List.mem_cons.1 hn).imp_right fun hn => ?_)
    simpa using hn
  | @unary _ operand _ =>
    have below := List.mem_cons.1 hn
    exact ofOperands [operand] rfl (below.imp_right fun hn => ⟨_, List.mem_cons_self, hn⟩)
  | @branch c a b _ _ _ =>
    refine ofOperands [c, a, b] rfl ((List.mem_cons.1 hn).imp_right fun hn => ?_)
    simpa using hn
  | @tuple items => exact ofOperands items rfl (Expr.mem_nodes_tupleOf hn)
  | @component base _ _ part =>
    rcases Expr.mem_nodes_element? part hn with below | ⟨same, -⟩
    · exact ofOperands [base] rfl (.inr ⟨_, List.mem_cons_self, below⟩)
    · exact .inr (.inr same)
  | @apply _ arguments _ =>
    exact ofOperands arguments rfl ((List.mem_cons.1 hn).imp_right Expr.mem_nodesOfAll.1)

/-- What holds of the nodes of the inputs holds of what an operation makes, if it holds of all nodes
but constants and choices, and of the constants and choices that there are. -/
theorem QueryForm.Makes.of_plain {P : Expr → Prop} {read : Nat → Expr} {op : Op} {e : Expr}
    (h : Makes m bindings read op e) (plain : ∀ n : Expr, n.isPlainNode → P n)
    (constants : ∀ v l, Literal.ofValue? v = some l → P (.constant l))
    (choices : ∀ c a b, op = .branch c a b → P (.conditional (read c) (read a) (read b)))
    (given : ∀ e, Binding.element e ∈ bindings → e.Throughout P)
    (inputs : ∀ id ∈ op.inputs, (read id).Throughout P) : P e := by
  cases h with
  | given bound => exact given e (List.mem_of_getElem? bound) e e.mem_nodes_self
  | constant literal => exact constants _ _ literal
  | branch => exact choices _ _ _ rfl
  | @component base index _ part =>
    rcases Expr.mem_nodes_element? part e.mem_nodes_self with below | ⟨-, tuple⟩
    · exact inputs base List.mem_cons_self e below
    · exact plain e (Expr.isPlainNode_of_isTuple tuple)
  | @field base name type => cases read base <;> exact plain _ rfl
  | _ => exact plain _ rfl

namespace Trace

variable {P : Expr → Prop} {t : Trace} {e : Expr}

/-- What holds of all nodes of what a trace is given, and of whatever an operation makes of
expressions of whose nodes it holds, holds of all nodes of what its operations stand for. -/
theorem throughout_reading {id : Nat}
    (given : ∀ e, Binding.element e ∈ bindings → e.Throughout P)
    (step : ∀ op ∈ t.ops, ∀ e, e.isUnsupported = false →
      Makes m bindings (t.reading m bindings) op e →
      (∀ i ∈ op.inputs, (t.reading m bindings i).Throughout P) → P e)
    (supported : (t.reading m bindings id).isUnsupported = false) :
    (t.reading m bindings id).Throughout P := by
  refine t.reading_induction (P := (·.Throughout P)) (fun op hop e supported made inputs => ?_)
    supported
  have inputs (i : Nat) (hi : i ∈ op.inputs) := (inputs i hi).2
  intro n hn
  rcases made.mem_nodes hn with ⟨b, hb, hn⟩ | ⟨id, hid, below⟩ | rfl
  · exact given b hb n hn
  · exact inputs id hid n below
  · exact step op hop n supported made inputs

theorem throughout_of_makes (given : ∀ e, Binding.element e ∈ bindings → e.Throughout P)
    (step : ∀ op ∈ t.ops, ∀ e, e.isUnsupported = false →
      Makes m bindings (t.reading m bindings) op e →
      (∀ i ∈ op.inputs, (t.reading m bindings i).Throughout P) → P e)
    (form : t.queryForm m bindings = .expr e) (supported : e.isUnsupported = false) :
    e.Throughout P := by
  have result := (queryForm_expr form supported).2
  rw [← result] at supported ⊢
  exact throughout_reading given step supported

/-- A property of all nodes but constants, and of the constants that there can be, is one of what a
trace translates to if it is one of what it is given. -/
theorem throughout_queryForm (plain : ∀ n : Expr, n.isPlainNode → P n)
    (constants : ∀ v l, Literal.ofValue? v = some l → P (.constant l))
    (choices : ∀ c a b, P (.conditional c a b))
    (given : ∀ e, Binding.element e ∈ bindings → e.Throughout P)
    (form : t.queryForm m bindings = .expr e) (supported : e.isUnsupported = false) :
    e.Throughout P :=
  throughout_of_makes given
    (fun _ _ _ _ made => made.of_plain plain constants (fun _ _ _ _ => choices _ _ _) given)
    form supported

end Trace
end EntityQuery
