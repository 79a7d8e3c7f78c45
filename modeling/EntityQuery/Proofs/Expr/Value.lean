import EntityQuery.Expr.Tuple
import EntityQuery.Expr.Walk
import EntityQuery.Pipeline.Assembly
import EntityQuery.Proofs.Failure
import EntityQuery.Value.Operation

/-! The value of an expression over one row of source entities, by the operators that lambdas run
on. A value depends only on the sources that the expression names, navigation reads one attribute
more, and the components of a tuple's value are the values of its components. -/
namespace EntityQuery

/-- One value for each source of a query, in the order of the sources. -/
abbrev SourceRow := List Value

def Literal.value : Literal → Value
  | int n => .int n
  | float x => .float x
  | string s => .string s
  | bool b => .bool b
  | null => .null

theorem Literal.value_of_ofValue? {v : Value} {l : Literal} (h : Literal.ofValue? v = some l) :
    l.value = v := by
  cases v <;> simp only [Literal.ofValue?] at h
  case float x =>
    split at h
    · obtain rfl := Option.some.inj h; rfl
    · simp at h
  all_goals first | (obtain rfl := Option.some.inj h; rfl) | simp at h

namespace Expr

/-- Reads attributes one after another. -/
def readPath (v : Value) (path : List String) : Except EvalError Value :=
  path.foldlM Value.readAttribute v

mutual

/-- A disjunction and a conjunction that the left operand decides pass over the right one, and of a
conditional only the arm taken is computed. Aggregates have no value on a single row. -/
def value (row : SourceRow) : Expr → Except EvalError Value
  | constant literal => .ok literal.value
  | parameter _ v => .ok v
  | source id _ =>
    match row[id]? with
    | some v => .ok v
    | none => .error (.unscoped id)
  | field base path _ => do readPath (← value row base) path
  | binary op left right => do
    let a ← value row left
    match op, a with
    | .and, .bool false => .ok (.bool false)
    | .or, .bool true => .ok (.bool true)
    | op, a => Value.binary op a (← value row right)
  | unary op operand => do Value.unary op (← value row operand)
  | conditional condition whenTrue whenFalse => do
    match ← value row condition with
    | .bool true => value row whenTrue
    | .bool false => value row whenFalse
    | other => .error (.typeMismatch "branch condition" other.kind)
  | tuple elements nesting => do .ok (nesting.build (← values row elements)).1
  | aggregate kind _ _ => .error (.typeMismatch kind.label .list)
  | apply fn arguments => do
    match ← values row arguments with
    | v :: _ => fn.applyTo v
    | [] => .error (.missingArgument 0)
  | unsupported reason => .error (.external "unsupported" reason)

def values (row : SourceRow) : List Expr → Except EvalError (List Value)
  | [] => .ok []
  | e :: es => do
    let v ← value row e
    let vs ← values row es
    .ok (v :: vs)

end

variable {row : SourceRow}

theorem value_field {base : Expr} {path : List String} {type : ExprType} {v : Value} :
    (field base path type).value row = .ok v ↔
      ∃ b, base.value row = .ok b ∧ readPath b path = .ok v := by
  rw [value, bind_ok_iff]

theorem value_unary {op : UnaryOp} {e : Expr} {v : Value} :
    (unary op e).value row = .ok v ↔ ∃ a, e.value row = .ok a ∧ Value.unary op a = .ok v := by
  rw [value, bind_ok_iff]

/-- Whether the left operand alone gives the value of an operation. -/
def decidesAlone : BinaryOp → Value → Bool
  | .and, .bool false => true
  | .or, .bool true => true
  | _, _ => false

/-- A left operand that decides is itself the value. -/
theorem value_binary {op : BinaryOp} {l r : Expr} {v : Value} :
    (binary op l r).value row = .ok v ↔ ∃ a, l.value row = .ok a ∧
      if decidesAlone op a then v = a
      else ∃ b, r.value row = .ok b ∧ Value.binary op a b = .ok v := by
  rw [value, bind_ok_iff]
  refine exists_congr fun a => and_congr_right fun _ => ?_
  unfold decidesAlone
  split
  · simp [eq_comm]
  · simp [eq_comm]
  · simp only [Bool.false_eq_true, if_false]
    rw [bind_ok_iff]

theorem decidesAlone_of_not_logical {op : BinaryOp} (h : op.isLogical = false) (a : Value) :
    decidesAlone op a = false := by
  cases op <;> first | rfl | cases h

/-- All but logical operations compute both operands. -/
theorem value_binary_of_not_logical {op : BinaryOp} {l r : Expr} {v : Value}
    (h : op.isLogical = false) : (binary op l r).value row = .ok v ↔
      ∃ a b, l.value row = .ok a ∧ r.value row = .ok b ∧ Value.binary op a b = .ok v := by
  simp [value_binary, decidesAlone_of_not_logical h]

theorem value_conditional {c a b : Expr} {v : Value} :
    (conditional c a b).value row = .ok v ↔
      (c.value row = .ok (.bool true) ∧ a.value row = .ok v) ∨
      (c.value row = .ok (.bool false) ∧ b.value row = .ok v) := by
  rw [value, bind_ok_iff]
  constructor
  · rintro ⟨w, hw, h⟩
    split at h
    · exact .inl ⟨hw, h⟩
    · exact .inr ⟨hw, h⟩
    · simp at h
  · rintro (⟨hc, h⟩ | ⟨hc, h⟩)
    · exact ⟨_, hc, h⟩
    · exact ⟨_, hc, h⟩

theorem value_tuple {es : List Expr} {n : Nesting} {v : Value} :
    (tuple es n).value row = .ok v ↔ ∃ vs, values row es = .ok vs ∧ (n.build vs).1 = v := by
  rw [value, bind_ok_iff]
  simp

theorem value_apply {fn : ScalarFn} {es : List Expr} {v : Value} :
    (apply fn es).value row = .ok v ↔
      ∃ a vs, values row es = .ok (a :: vs) ∧ fn.applyTo a = .ok v := by
  rw [value, bind_ok_iff]
  constructor
  · rintro ⟨ws, hws, h⟩
    cases ws with
    | nil => simp at h
    | cons a vs => exact ⟨a, vs, hws, h⟩
  · rintro ⟨a, vs, hvs, h⟩
    exact ⟨_, hvs, h⟩

theorem values_cons {e : Expr} {es : List Expr} {vs : List Value} :
    values row (e :: es) = .ok vs ↔
      ∃ w ws, e.value row = .ok w ∧ values row es = .ok ws ∧ vs = w :: ws := by
  rw [values, bind_ok_iff]
  simp only [bind_ok_iff]
  constructor
  · rintro ⟨w, hw, ws, hws, h⟩
    exact ⟨w, ws, hw, hws, (Except.ok.inj h).symm⟩
  · rintro ⟨w, ws, hw, hws, rfl⟩
    exact ⟨w, hw, ws, hws, rfl⟩

/-- Values come member by member. -/
theorem values_eq_ok {es : List Expr} {vs : List Value} :
    values row es = .ok vs ↔ List.Forall₂ (fun e v => e.value row = .ok v) es vs := by
  induction es generalizing vs with
  | nil => simp [values, eq_comm]
  | cons e es ih =>
    rw [values_cons]
    constructor
    · rintro ⟨w, ws, hw, hws, rfl⟩
      exact .cons hw (ih.1 hws)
    · rintro (_ | ⟨hw, hws⟩)
      exact ⟨_, _, hw, ih.2 hws, rfl⟩

theorem values_congr {row row' : SourceRow} {es : List Expr}
    (h : ∀ e ∈ es, e.value row = e.value row') : values row es = values row' es := by
  induction es with
  | nil => rfl
  | cons e es ih =>
    obtain ⟨first, others⟩ := List.forall_mem_cons.1 h
    rw [values, values, first, ih others]

end Expr
end EntityQuery
