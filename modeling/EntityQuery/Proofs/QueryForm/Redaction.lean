import EntityQuery.Proofs.Expr.Redaction
import EntityQuery.QueryForm

/-! Interpretation of redacted traces. Each operation depends on its operands through their types
and through which of them are unsupported, so the query form of a redacted trace is the redacted
query form, and what is unsupported is so for the same reason. -/
namespace EntityQuery

def Binding.redact : Binding → Binding
  | element e => .element e.redact
  | provider => .provider

def QueryForm.redact : QueryForm → QueryForm
  | expr e => .expr e.redact
  | join source => .join source

def Meaning.redact : Meaning → Meaning
  | expr e => .expr e.redact
  | provider => .provider
  | stream source => .stream source

@[simp] theorem Meaning.redact_unsupported (reason : String) :
    (unsupported reason).redact = unsupported reason := rfl

@[simp] theorem Meaning.asExpr_redact (k : Meaning) : k.redact.asExpr = k.asExpr.redact := by
  cases k <;> rfl

theorem Op.external?_redact (op : Op) : op.redact.external? = op.external? := by
  cases op <;> rfl

@[simp] theorem QueryForm.unsupported?_redact (form : QueryForm) :
    form.redact.unsupported? = form.unsupported? := by
  cases form with
  | expr e => cases e <;> rfl
  | join source => rfl

namespace QueryForm

variable {m : Metamodel} (e : Expr)

theorem redact_constant (v : Value) : (constant v).redact = constant v := by
  unfold constant
  split <;> rfl

theorem redact_capture (name : String) (v : Value) :
    (capture name v).redact = capture name v.redact := by
  have types := Literal.type_ofValue?_redact v
  cases written : Literal.ofValue? v with
  | some l =>
    cases redacted : Literal.ofValue? v.redact with
    | some l' => simp [capture, written, redacted, Expr.redact]
    | none => simp [written, redacted] at types
  | none => simp [capture, Value.redact_of_ofValue?_eq_none written, written, Expr.redact]

theorem redact_field (name : String) : (field m e name).redact = field m e.redact name := by
  unfold field
  rw [Expr.isUnsupported_redact, Expr.type_redact]
  by_cases failed : e.isUnsupported = true
  · rw [if_pos failed, if_pos failed]
  rw [if_neg failed, if_neg failed]
  cases e.type with
  | entity entity =>
    cases known : m.attribute? entity name with
    | some kind => simp only [known, Expr.redact_navigate]
    | none => simp only [known, Expr.redact]
  | _ => rfl

theorem redact_binary (op : BinaryOp) (l r : Expr) :
    (binary op l r).redact = binary op l.redact r.redact := by
  unfold binary
  simp only [Expr.isUnsupported_redact, Expr.isNullLiteral_redact, Expr.type_redact]
  split
  · rfl
  split
  · rfl
  split
  · rfl
  split
  · rfl
  split <;> rfl

theorem redact_unary (op : UnaryOp) : (unary op e).redact = unary op e.redact := by
  unfold unary
  simp only [Expr.isUnsupported_redact, Expr.type_redact]
  split
  · rfl
  split <;> rfl

/-- Of several operands the same one is unsupported. -/
theorem find?_isUnsupported_redact (items : List Expr) :
    (items.map Expr.redact).find? Expr.isUnsupported =
      (items.find? Expr.isUnsupported).map Expr.redact := by
  have same : Expr.isUnsupported ∘ Expr.redact = Expr.isUnsupported :=
    funext Expr.isUnsupported_redact
  rw [List.find?_map, same]

theorem redact_branch (c a b : Expr) :
    (branch c a b).redact = branch c.redact a.redact b.redact := by
  have found := find?_isUnsupported_redact [c, a, b]
  rw [List.map_cons, List.map_cons, List.map_cons, List.map_nil] at found
  unfold branch
  rw [found]
  cases [c, a, b].find? Expr.isUnsupported with
  | some e => rfl
  | none =>
    simp only [Option.map_none, Expr.type_redact]
    split
    · rfl
    split <;> rfl

theorem redact_tuple (items : List Expr) :
    (tuple items).redact = tuple (items.map Expr.redact) := by
  unfold tuple
  rw [find?_isUnsupported_redact, ← Expr.redact_tupleOf]
  cases items.find? Expr.isUnsupported <;> rfl

theorem redact_element (index : Nat) : (element e index).redact = element e.redact index := by
  have same := e.type_redact
  cases e with
  | tuple elements nesting =>
    have part := (Expr.tuple elements nesting).redact_element? index
    rw [Expr.redact] at part ⊢
    rw [element, element, part]
    cases (Expr.tuple elements nesting).element? index <;> rfl
  | unsupported reason => rfl
  | _ =>
    rw [Expr.redact] at same ⊢
    simp only [element, Expr.redact, same]

theorem redact_apply (fn : ScalarFn) (arguments : List Expr) :
    (apply fn arguments).redact = apply fn (arguments.map Expr.redact) := by
  unfold apply
  rw [find?_isUnsupported_redact, List.all_map]
  cases arguments.find? Expr.isUnsupported with
  | some e => rfl
  | none =>
    simp only [Option.map_none, Function.comp_def, Expr.type_redact]
    split
    · rw [Expr.redact, Expr.redactAll_eq_map]
    · rfl

theorem redact_streamFrom : (streamFrom e).redact = streamFrom e.redact := by
  have same := e.type_redact
  cases e with
  | field base path type => cases type <;> cases base <;> rfl
  | unsupported reason => rfl
  | _ =>
    rw [Expr.redact] at same ⊢
    simp only [streamFrom, Meaning.redact_unsupported, same]

theorem redact_streamEntity (entity : String) (giver : Meaning) :
    (streamEntity m entity giver).redact = streamEntity m entity giver.redact := by
  cases giver with
  | provider =>
    show _ = streamEntity m entity .provider
    unfold streamEntity
    by_cases known : m.has entity = true
    · rw [if_pos known]
      rfl
    · rw [if_neg known]
      rfl
  | expr e => rfl
  | stream source => rfl

/-- An operation on redacted operands means what it means, redacted. -/
theorem redact_meaning (bindings : List Binding) (known : List Meaning) (op : Op) :
    (meaning m bindings known op).redact =
      meaning m (bindings.map Binding.redact) (known.map Meaning.redact) op.redact := by
  have stored (id : Nat) : meaning.meaningOf (known.map Meaning.redact) id =
      (meaning.meaningOf known id).redact := by
    unfold meaning.meaningOf
    rw [List.getElem?_map]
    cases known[id]? <;> rfl
  have operand (id : Nat) : meaning.exprOf (known.map Meaning.redact) id =
      (meaning.exprOf known id).redact := by
    rw [meaning.exprOf, meaning.exprOf, stored, Meaning.asExpr_redact]
  have operands (items : List Nat) : items.map (meaning.exprOf (known.map Meaning.redact)) =
      (items.map (meaning.exprOf known)).map Expr.redact := by
    rw [List.map_map]
    exact List.map_congr_left fun id _ => operand id
  cases op with
  | param index =>
    show _ = meaning m _ _ (.param index)
    rw [meaning, meaning, List.getElem?_map]
    cases bindings[index]? with
    | none => rfl
    | some binding => cases binding <;> rfl
  | const v => exact congrArg Meaning.expr (redact_constant v)
  | capture name v => exact congrArg Meaning.expr (redact_capture name v)
  | field base name =>
    have read := redact_field (m := m) (meaning.exprOf known base) name
    rw [← operand] at read
    exact congrArg Meaning.expr read
  | binary op l r =>
    have joined := redact_binary op (meaning.exprOf known l) (meaning.exprOf known r)
    rw [← operand, ← operand] at joined
    exact congrArg Meaning.expr joined
  | unary op e =>
    have applied := redact_unary (meaning.exprOf known e) op
    rw [← operand] at applied
    exact congrArg Meaning.expr applied
  | branch c a b =>
    have chosen := redact_branch (meaning.exprOf known c) (meaning.exprOf known a)
      (meaning.exprOf known b)
    rw [← operand, ← operand, ← operand] at chosen
    exact congrArg Meaning.expr chosen
  | tuple items =>
    have made := redact_tuple (items.map (meaning.exprOf known))
    rw [← operands] at made
    exact congrArg Meaning.expr made
  | element base index =>
    have part := redact_element (meaning.exprOf known base) index
    rw [← operand] at part
    exact congrArg Meaning.expr part
  | call callee items =>
    cases callee with
    | known fn =>
      have applied := redact_apply fn (items.map (meaning.exprOf known))
      rw [← operands] at applied
      exact congrArg Meaning.expr applied
    | external f => rfl
  | streamFrom collection =>
    have streamed := redact_streamFrom (meaning.exprOf known collection)
    rwa [← operand] at streamed
  | streamEntity provider entity =>
    have opened := redact_streamEntity (m := m) entity (meaning.meaningOf known provider)
    rwa [← stored] at opened

theorem redact_meanings (bindings : List Binding) (ops : List Op) :
    (meanings m bindings ops).map Meaning.redact =
      meanings m (bindings.map Binding.redact) (ops.map Op.redact) := by
  unfold meanings
  rw [List.foldl_map]
  refine (List.foldl_hom (List.map Meaning.redact) fun known op => ?_).symm
  rw [List.map_append, List.map_singleton, redact_meaning]

end QueryForm

namespace Trace

@[simp] theorem externalCalls_redact (t : Trace) : t.redact.externalCalls = t.externalCalls := by
  unfold externalCalls redact
  rw [List.zipIdx_map, List.filterMap_map]
  congr 1
  funext x
  exact congrArg (Option.map (x.2, ·)) x.1.external?_redact

/-- A redacted trace over redacted elements has the redacted query form. -/
theorem queryForm_redact (t : Trace) (m : Metamodel) (bindings : List Binding) :
    t.redact.queryForm m (bindings.map Binding.redact) = (t.queryForm m bindings).redact := by
  have result : (QueryForm.meanings m (bindings.map Binding.redact) t.redact.ops)[t.result]? =
      ((QueryForm.meanings m bindings t.ops)[t.result]?).map Meaning.redact := by
    rw [← List.getElem?_map, QueryForm.redact_meanings, redact]
  unfold queryForm
  rw [externalCalls_redact]
  cases t.externalCalls with
  | cons call calls => rfl
  | nil =>
    dsimp only
    rw [show t.redact.result = t.result from rfl, result]
    cases (QueryForm.meanings m bindings t.ops)[t.result]? with
    | none => rfl
    | some k => cases k <;> rfl

end Trace
end EntityQuery
