import EntityQuery.Proofs.Expr.Redaction
import EntityQuery.Proofs.Query.Merging
import EntityQuery.Proofs.Query.Parameters

/-! Models without captured values. Whether a clause merges, and if not why, does not depend on what
is captured; neither does the text of a query, its window or its nesting. Of the parameters the
names and the kinds of the values stay. -/
namespace EntityQuery

def OrderKey.redact (key : OrderKey) : OrderKey := { key with expr := key.expr.redact }

def QueryModel.redact (m : QueryModel) : QueryModel :=
  { m with
    predicate := m.predicate.map Expr.redact
    projection := m.projection.map Expr.redact
    ordering := m.ordering.map OrderKey.redact }

namespace QueryModel

variable (m : QueryModel) (e : Expr)

@[simp] theorem element_redact : m.redact.element = m.element.redact := by
  unfold element
  rw [redact]
  cases m.projection <;> rfl

@[simp] theorem rowNesting_redact : m.redact.rowNesting = m.rowNesting := by
  unfold rowNesting
  rw [redact]
  cases m.projection with
  | none => rfl
  | some e => exact e.nesting_redact

theorem exprs_redact : m.redact.exprs = m.exprs.map Expr.redact := by
  have optional (o : Option Expr) : (o.map Expr.redact).toList = o.toList.map Expr.redact := by
    cases o <;> rfl
  simp [exprs, redact, optional, OrderKey.redact]

/-! ### Merging -/

/-- After one and the same check, what commutes with redaction still does. -/
theorem bind_eq_map {ε α β : Type} {x : Except ε α} {k k' : α → Except ε β} {g : β → β}
    (h : ∀ a, k' a = (k a).map g) : x >>= k' = (x >>= k).map g := by
  cases x with
  | error e => rfl
  | ok a => exact h a

@[simp] theorem checkExpr_redact : m.redact.checkExpr e.redact = m.checkExpr e := by
  unfold checkExpr
  rw [Expr.firstUnsupported?_redact, Expr.sources_redact]
  rfl

@[simp] theorem isPlain_redact : isPlain e.redact = isPlain e := by
  cases e <;> rfl

theorem select_redact : m.redact.select e.redact = (m.select e).map redact := by
  unfold select
  rw [checkExpr_redact, isPlain_redact, Expr.type_redact]
  refine bind_eq_map fun _ => bind_eq_map fun _ => ?_
  cases isPlain e <;> cases e.type <;> rfl

theorem filter_redact : m.redact.filter e.redact = (m.filter e).map redact := by
  have conjoined : Expr.conjunction? (m.redact.predicate.toList ++ [e.redact]) =
      (Expr.conjunction? (m.predicate.toList ++ [e])).map Expr.redact := by
    rw [← Expr.redact_conjunction?, redact]
    cases m.predicate <;> rfl
  unfold filter
  rw [checkExpr_redact, Expr.type_redact, conjoined]
  refine bind_eq_map fun _ => bind_eq_map fun _ => ?_
  split <;> rfl

theorem joined_redact (source : Source) :
    m.redact.joined source = (m.joined source).redact := by
  have pair : Expr.tupleOf [m.redact.element, .source m.sources.length source.entity] =
      (Expr.tupleOf [m.element, .source m.sources.length source.entity]).redact := by
    rw [element_redact, Expr.redact_tupleOf]
    rfl
  exact congrArg (fun e => { m.redact with sources := m.sources ++ [source], projection := some e })
    pair

theorem join_redact (source : Source) : m.redact.join source = (m.join source).map redact := by
  have joined : Except.ok (m.redact.joined source) =
      (Except.ok (m.joined source) : Except MergeError QueryModel).map redact :=
    congrArg Except.ok (m.joined_redact source)
  refine bind_eq_map fun _ => bind_eq_map fun _ => ?_
  cases source with
  | root entity => exact joined
  | path parent names entity => exact bind_eq_map fun _ => joined

theorem sort_redact (direction : Direction) :
    m.redact.sort e.redact direction = (m.sort e direction).map redact := by
  unfold sort
  rw [checkExpr_redact, Expr.type_redact]
  refine bind_eq_map fun _ => bind_eq_map fun _ => ?_
  split <;> rfl

theorem dedupe_redact : m.redact.dedupe = m.dedupe.map redact :=
  bind_eq_map fun _ => rfl

@[simp] theorem validate_redact : m.redact.validate = m.validate := by
  have checked (es : List Expr) :
      (es.map Expr.redact).forM m.redact.checkExpr = es.forM m.checkExpr := by
    induction es with
    | nil => rfl
    | cons e es ih =>
      show (m.redact.checkExpr e.redact >>= fun _ => (es.map Expr.redact).forM _) = _
      rw [checkExpr_redact, ih]
      rfl
  unfold validate
  rw [exprs_redact, checked]
  rfl

end QueryModel

/-! ### Text -/

namespace Emission

variable {ctx : Context}

@[simp] theorem bindsLooser_redact (op : BinaryOp) (e : Expr) :
    bindsLooser op e.redact = bindsLooser op e := by
  cases e <;> rfl

@[simp] theorem wrapAfterMinus_redact (e : Expr) : wrapAfterMinus e.redact = wrapAfterMinus e := by
  cases e <;> rfl

@[simp] theorem isBinary_redact (e : Expr) : isBinary e.redact = isBinary e := by
  cases e <;> rfl

theorem operation_redact (op : BinaryOp) (left right : Expr) :
    operation op left.redact right.redact = operation op left right := by
  funext leftTokens rightTokens
  rw [operation, operation, bindsLooser_redact, Expr.isLeaf_redact]

theorem renderBinary_redact (op : BinaryOp) (left right : Expr) :
    renderBinary ctx op left.redact right.redact = renderBinary ctx op left right := by
  funext l r
  cases op <;> simp only [renderBinary, operation_redact]

theorem renderUnary_redact (op : UnaryOp) (operand : Expr) :
    renderUnary op operand.redact = renderUnary op operand := by
  funext x
  cases op <;> simp only [renderUnary, wrapAfterMinus_redact, isBinary_redact]

mutual

/-- The value of a parameter is not written, and no parenthesis depends on it. -/
theorem render_redact : (e : Expr) → render ctx e.redact = render ctx e
  | .constant _ | .parameter _ _ | .source _ _ | .unsupported _ => by
    simp only [Expr.redact, render]
  | .field base path type => by rw [Expr.redact, render, render, render_redact base]
  | .binary op left right => by
    rw [Expr.redact, render, render, renderBinary_redact, render_redact left, render_redact right]
  | .unary op operand => by
    rw [Expr.redact, render, render, renderUnary_redact, render_redact operand]
  | .conditional condition whenTrue whenFalse => by
    rw [Expr.redact, render, render, render_redact condition, render_redact whenTrue,
      render_redact whenFalse]
  | .tuple elements nesting => by
    rw [Expr.redact, render, render, renderValues_redactAll elements]
  | .aggregate kind argument distinct => by
    rw [Expr.redact, render, render, render_redact argument]
  | .apply fn arguments => by
    rw [Expr.redact, render, render, renderValues_redactAll arguments]

theorem renderValues_redactAll :
    (es : List Expr) → renderValues ctx (Expr.redactAll es) = renderValues ctx es
  | [] => rfl
  | e :: es => by
    rw [Expr.redactAll, renderValues, renderValues, render_redact e, renderValues_redactAll es]

end

theorem projectionTokens_redact (selected : Option Expr) :
    projectionTokens ctx (selected.map Expr.redact) = projectionTokens ctx selected := by
  cases selected with
  | none => rfl
  | some e =>
    rw [Option.map_some, projectionTokens, projectionTokens, Expr.columns_redact,
      ← Expr.redactAll_eq_map, renderValues_redactAll]

theorem orderTokens_redact (key : OrderKey) : orderTokens ctx key.redact = orderTokens ctx key := by
  rw [orderTokens, orderTokens, OrderKey.redact, render_redact]

end Emission

namespace QueryModel

open Emission

variable (m : QueryModel)

@[simp] theorem tokens_redact (dialect : Dialect) : m.redact.tokens dialect = m.tokens dialect := by
  let ctx := m.emissionContext dialect
  have projected : projectionTokens (m.redact.emissionContext dialect) m.redact.projection =
      projectionTokens ctx m.projection := projectionTokens_redact m.projection
  have ordered (keys : List OrderKey) :
      (keys.map OrderKey.redact).map (orderTokens ctx) = keys.map (orderTokens ctx) := by
    rw [List.map_map]
    exact List.map_congr_left fun key _ => orderTokens_redact key
  unfold tokens
  dsimp only
  rw [projected]
  congr 1
  · congr 1
    rw [redact]
    cases m.predicate with
    | none => rfl
    | some e =>
      have kept : (render ctx e.redact).condition.tokens = (render ctx e).condition.tokens := by
        rw [render_redact]
      exact congrArg (spaced [.word .WHERE] ++ ·) kept
  · rw [redact]
    cases m.ordering with
    | nil => rfl
    | cons key rest =>
      exact congrArg (spaced [.word .ORDER_BY] ++ commaSeparated ·) (ordered (key :: rest))

@[simp] theorem text_redact [Libraries] (dialect : Dialect) :
    m.redact.text dialect = m.text dialect := by
  rw [text, text, tokens_redact]

end QueryModel

/-! ### Parameters -/

/-- The names, each with the kind of its value. -/
def Dictionary.redact (d : Dictionary Value) : Dictionary Value :=
  d.map fun p => (p.1, p.2.redact)

namespace Dictionary

variable (d : Dictionary Value)

@[simp] theorem names_redact : d.redact.names = d.names := by
  rw [names, redact, List.map_map]
  rfl

theorem insert_redact (name : String) (v : Value) :
    (d.insert name v).redact = d.redact.insert name v.redact := by
  induction d with
  | nil => rfl
  | cons entry rest ih =>
    obtain ⟨key, old⟩ := entry
    rw [redact] at ih
    simp only [redact, List.map_cons, insert] 
    split
    · rfl
    split
    · rfl
    · rw [List.map_cons, ih]
      rfl

theorem bindNew_redact (p : String × Value) :
    (d.bindNew p).redact = d.redact.bindNew (p.1, p.2.redact) := by
  by_cases bound : p.1 ∈ d.names
  · rw [bindNew_of_mem bound, bindNew_of_mem (by rwa [names_redact])]
  · have new : ¬d.has p.1 = true := fun h => bound (has_iff.1 h)
    have newRedacted : ¬d.redact.has p.1 = true := fun h => bound (names_redact d ▸ has_iff.1 h)
    rw [bindNew, bindNew, if_neg new, if_neg newRedacted, insert_redact]

theorem bindAll_redact (ps : List (String × Value)) :
    (d.bindAll ps).redact = d.redact.bindAll (ps.map fun p => (p.1, p.2.redact)) := by
  rw [bindAll, bindAll, List.foldl_map]
  exact (List.foldl_hom redact fun d p => (d.bindNew_redact p).symm).symm

end Dictionary

theorem Expr.allParameters_redact (e : Expr) :
    e.redact.allParameters = e.allParameters.map fun p => (p.1, p.2.redact) := by
  have same : parameter? ∘ redact = fun n => (parameter? n).map fun p => (p.1, p.2.redact) := by
    funext n
    cases n <;> rfl
  rw [allParameters, allParameters, nodes_redact, List.filterMap_map, same, List.map_filterMap]

/-- The names of the parameters and the kinds of their values are those of the redacted model. -/
theorem QueryModel.redact_params {m : QueryModel} {params : Dictionary Value}
    (h : m.collectParameters = .ok params) :
    params.redact = Dictionary.bindAll [] (m.redact.exprs.flatMap Expr.allParameters) := by
  rw [collectParameters_eq h, Dictionary.bindAll_redact, exprs_redact, List.flatMap_map,
    List.map_flatMap]
  simp only [Expr.allParameters_redact]
  rfl

/-! ### Compiled queries -/

/-- Queries that are the same but for the values of their parameters, which are alike too, and the
fingerprint that is taken of them. -/
structure CompiledQuery.Alike (q q' : CompiledQuery) : Prop where
  text : q.text = q'.text
  window : q.window = q'.window
  nesting : q.nesting = q'.nesting
  dialect : q.dialect = q'.dialect
  params : q.params.redact = q'.params.redact

namespace QueryModel

variable {m m' : QueryModel} {dialect : Dialect} {q q' : CompiledQuery}

theorem compile_ok [Libraries] (h : m.compile dialect = .ok q) :
    m.validate = .ok () ∧ m.collectParameters = .ok q.params ∧ q.text = m.text dialect ∧
      q.window = m.window ∧ q.nesting = m.rowNesting ∧ q.dialect = dialect := by
  obtain ⟨_, valid, h⟩ := bind_ok_iff.1 h
  obtain ⟨params, collected, h⟩ := bind_ok_iff.1 h
  obtain rfl := Except.ok.inj h
  exact ⟨mapError_ok_iff.1 valid, collected, rfl, rfl, rfl, rfl⟩

/-- Models that are the same when redacted compile to queries that are alike. -/
theorem alike_of_compile [Libraries] (same : m.redact = m'.redact) (h : m.compile dialect = .ok q)
    (h' : m'.compile dialect = .ok q') : q.Alike q' := by
  obtain ⟨-, params, text, window, nesting, written⟩ := compile_ok h
  obtain ⟨-, params', text', window', nesting', written'⟩ := compile_ok h'
  refine ⟨?_, ?_, ?_, written.trans written'.symm, ?_⟩
  · rw [text, text', ← m.text_redact, same, text_redact]
  · have windows : m.redact.window = m'.redact.window := congrArg QueryModel.window same
    rw [window, window']
    exact windows
  · rw [nesting, nesting', ← m.rowNesting_redact, same, rowNesting_redact]
  · rw [redact_params params, redact_params params', same]

end QueryModel
end EntityQuery
