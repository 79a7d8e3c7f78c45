import EntityQuery.Expr.Tuple
import EntityQuery.Expr.Walk
import EntityQuery.Proofs.Lambda.Redaction

/-! Expressions without the values of their parameters. A parameter keeps its name and the type of
its value, so types, tuples, paths and what is found among the nodes stay as they are. -/
namespace EntityQuery

/-- Redaction keeps whether a value can be written, and as what type. -/
theorem Literal.type_ofValue?_redact (v : Value) :
    (Literal.ofValue? v.redact).map Literal.type = (Literal.ofValue? v).map Literal.type := by
  cases v with
  | float x =>
    by_cases finite : Number.isFinite x = true
    · simp [Value.redact, finite, ofValue?, type]
    · simp [Value.redact, finite, ofValue?]
  | _ => rfl

/-- What cannot be written is left as it is. -/
theorem Value.redact_of_ofValue?_eq_none {v : Value} (h : Literal.ofValue? v = none) :
    v.redact = v := by
  cases v with
  | float x =>
    have infinite : ¬Number.isFinite x = true := by
      intro finite
      simp [Literal.ofValue?, finite] at h
    rw [redact, if_neg infinite]
  | null => rfl
  | entity _ _ => rfl
  | list _ => rfl
  | tuple _ => rfl
  | bool _ => cases h
  | int _ => cases h
  | string _ => cases h

/-- What a value of a type is redacted to. -/
def Value.blank : ExprType → Value
  | .boolean => .bool false
  | .numeric => .int 0
  | .string => .string ""
  | _ => .null

theorem Value.redact_of_literal {v : Value} {l : Literal} (h : Literal.ofValue? v = some l) :
    v.redact = blank l.type := by
  cases v with
  | float x =>
    by_cases finite : Number.isFinite x = true
    · obtain rfl : Literal.float x = l := by simpa [Literal.ofValue?, finite] using h
      exact if_pos finite
    · simp [Literal.ofValue?, finite] at h
  | null => obtain rfl := Option.some.inj h; rfl
  | bool b => obtain rfl := Option.some.inj h; rfl
  | int n => obtain rfl := Option.some.inj h; rfl
  | string s => obtain rfl := Option.some.inj h; rfl
  | entity _ _ => cases h
  | list _ => cases h
  | tuple _ => cases h

/-- Values that can be written are the same when redacted if and only if they are of one type. -/
theorem Value.redact_eq_iff {v w : Value} {l k : Literal} (hv : Literal.ofValue? v = some l)
    (hw : Literal.ofValue? w = some k) : v.redact = w.redact ↔ l.type = k.type := by
  constructor
  · intro same
    have types := Literal.type_ofValue?_redact v
    rw [same, Literal.type_ofValue?_redact, hv, hw] at types
    exact (Option.some.inj types).symm
  · intro types
    rw [redact_of_literal hv, redact_of_literal hw, types]

namespace Expr

mutual

/-- Constants stay: they are part of the query, not of what is captured. -/
def redact : Expr → Expr
  | constant literal => constant literal
  | parameter name value => parameter name value.redact
  | source id entity => source id entity
  | field base path type => field base.redact path type
  | binary op left right => binary op left.redact right.redact
  | unary op operand => unary op operand.redact
  | conditional condition whenTrue whenFalse =>
    conditional condition.redact whenTrue.redact whenFalse.redact
  | tuple elements nesting => tuple (redactAll elements) nesting
  | aggregate kind argument distinct => aggregate kind argument.redact distinct
  | apply fn arguments => apply fn (redactAll arguments)
  | unsupported reason => unsupported reason

def redactAll : List Expr → List Expr
  | [] => []
  | e :: es => e.redact :: redactAll es

end

@[simp] theorem redactAll_eq_map (es : List Expr) : redactAll es = es.map redact := by
  induction es with
  | nil => rfl
  | cons e es ih => rw [redactAll, ih, List.map_cons]

variable (e : Expr)

@[simp] theorem isUnsupported_redact : e.redact.isUnsupported = e.isUnsupported := by
  cases e <;> rfl

@[simp] theorem isNullLiteral_redact : e.redact.isNullLiteral = e.isNullLiteral := by
  cases e <;> rfl

@[simp] theorem isLeaf_redact : e.redact.isLeaf = e.isLeaf := by
  cases e <;> rfl

/-- The type of an expression depends on a captured value only through the value's own type. -/
@[simp] theorem type_redact : (e : Expr) → e.redact.type = e.type
  | parameter name value => by rw [redact, type, type, Literal.type_ofValue?_redact]
  | conditional condition whenTrue whenFalse => by
    rw [redact, type, type, type_redact whenTrue, type_redact whenFalse]
  | aggregate kind argument distinct => by
    cases kind with
    | min | max => exact type_redact argument
    | count | sum | avg => rfl
  | constant _ | source _ _ | field _ _ _ | binary _ _ _ | unary _ _ | tuple _ _ | apply _ _
  | unsupported _ => by simp only [redact, type]

@[simp] theorem columns_redact : e.redact.columns = e.columns.map redact := by
  cases e with
  | tuple elements nesting => exact redactAll_eq_map elements
  | _ => rfl

@[simp] theorem nesting_redact : e.redact.nesting = e.nesting := by
  cases e <;> rfl

theorem redact_tupleOf (items : List Expr) :
    (tupleOf items).redact = tupleOf (items.map redact) := by
  simp [tupleOf, redact, List.map_flatMap, List.flatMap_map]

theorem redact_part? (elements : List Expr) (offset : Nat) (part : Nesting) :
    part? (elements.map redact) offset part = (part? elements offset part).map redact := by
  cases part with
  | leaf => exact List.getElem?_map
  | group parts =>
    by_cases fits : offset + Nesting.totalWidth parts ≤ elements.length
    · simp [part?, fits, redact, List.map_drop, List.map_take]
    · simp [part?, fits]

theorem redact_element? (index : Nat) :
    e.redact.element? index = (e.element? index).map redact := by
  cases e with
  | tuple elements nesting =>
    cases nesting with
    | leaf => rfl
    | group parts =>
      rw [redact, redactAll_eq_map, element?, element?]
      cases parts[index]? with
      | none => rfl
      | some part => exact redact_part? elements _ part
  | _ => rfl

theorem redact_navigate (name : String) (type : ExprType) :
    (e.navigate name type).redact = e.redact.navigate name type := by
  cases e <;> rfl

mutual

theorem nodes_redact : (e : Expr) → e.redact.nodes = e.nodes.map redact
  | constant _ | parameter _ _ | source _ _ | unsupported _ => rfl
  | field base path type => by
    rw [redact, nodes, nodes, nodes_redact base, List.map_cons, redact]
  | binary op left right => by
    rw [redact, nodes, nodes, nodes_redact left, nodes_redact right, List.map_cons,
      List.map_append, redact]
  | unary op operand => by
    rw [redact, nodes, nodes, nodes_redact operand, List.map_cons, redact]
  | conditional condition whenTrue whenFalse => by
    rw [redact, nodes, nodes, nodes_redact condition, nodes_redact whenTrue,
      nodes_redact whenFalse, List.map_cons, List.map_append, List.map_append, redact]
  | tuple elements nesting => by
    rw [redact, nodes, nodes, nodesOfAll_redactAll elements, List.map_cons, redact]
  | aggregate kind argument distinct => by
    rw [redact, nodes, nodes, nodes_redact argument, List.map_cons, redact]
  | apply fn arguments => by
    rw [redact, nodes, nodes, nodesOfAll_redactAll arguments, List.map_cons, redact]

theorem nodesOfAll_redactAll :
    (es : List Expr) → nodesOfAll (redactAll es) = (nodesOfAll es).map redact
  | [] => rfl
  | e :: es => by
    rw [redactAll, nodesOfAll, nodesOfAll, nodes_redact e, nodesOfAll_redactAll es,
      List.map_append]

end

@[simp] theorem sources_redact : e.redact.sources = e.sources := by
  have same : sourceId? ∘ redact = sourceId? := by
    funext n
    cases n <;> rfl
  rw [sources, sources, nodes_redact, List.filterMap_map, same]

@[simp] theorem firstUnsupported?_redact : e.redact.firstUnsupported? = e.firstUnsupported? := by
  have same : reason? ∘ redact = reason? := by
    funext n
    cases n <;> rfl
  rw [firstUnsupported?, firstUnsupported?, nodes_redact, List.findSome?_map, same]

theorem redact_conjunction? (es : List Expr) :
    conjunction? (es.map redact) = (conjunction? es).map redact := by
  cases es with
  | nil => rfl
  | cons first rest =>
    have folded : (rest.map redact).foldl (binary .and) first.redact =
        (rest.foldl (binary .and) first).redact := by
      rw [List.foldl_map]
      exact List.foldl_hom redact fun _ _ => rfl
    exact congrArg some folded

end Expr
end EntityQuery
