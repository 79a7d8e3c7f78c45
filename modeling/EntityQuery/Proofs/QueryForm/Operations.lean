import EntityQuery.Proofs.Expr.Tuple
import EntityQuery.Proofs.Expr.Typing
import EntityQuery.Proofs.QueryForm.Formed

/-! The values of what operations make. Reading one more attribute, an equality with null and an
operator that was resolved from types have the values that the recorded operations have. -/
namespace EntityQuery
namespace QueryForm

open EntityQuery.Expr

variable {m : Metamodel} {row : SourceRow} {a b v : Value} {l r e : Expr}

theorem value_navigate {name : String} {type : ExprType} (he : e.value row = .ok a)
    (read : a.readAttribute name = .ok v) : (e.navigate name type).value row = .ok v := by
  cases e with
  | field base path type' =>
    obtain ⟨b, hb, hpath⟩ := value_field.1 he
    refine value_field.2 ⟨b, hb, ?_⟩
    rw [readPath, List.foldlM_append, bind_ok_iff]
    exact ⟨a, hpath, by simpa using read⟩
  | _ => exact value_field.2 ⟨a, he, by simpa [readPath] using read⟩

theorem eq_null_of_isNullLiteral (h : e.isNullLiteral) : e = .constant .null := by
  unfold isNullLiteral at h
  split at h
  · rfl
  · cases h

theorem equals_null_right (a : Value) : a.equals .null = a.isNull := by
  cases a <;> rfl

theorem equals_null_left (a : Value) : Value.equals .null a = a.isNull := by
  cases a <;> rfl

/-- A test for null is an equality with null. -/
theorem unary_nullTest {op : BinaryOp} (equality : op.isEquality) (a : Value) :
    Value.unary (nullTest op) a = Value.binary op a .null ∧
      Value.unary (nullTest op) a = Value.binary op .null a := by
  cases op <;> simp [BinaryOp.isEquality] at equality <;>
    simp [nullTest, Value.unary, Value.binary, equals_null_left, equals_null_right]

/-- Arithmetic has no value on null. -/
theorem arithmetic_null {op : BinaryOp} (h : a = .null ∨ b = .null) :
    Value.arithmetic op a b ≠ .ok v := by
  rcases h with rfl | rfl
  · simp [Value.arithmetic, Value.asFloat?]
  · cases a <;> simp [Value.arithmetic, Value.asFloat?]

/-- With a text among its operands, a sum that has a value concatenates. -/
theorem concatenate_of_add (hl : m.Conforms l.type a) (hr : m.Conforms r.type b)
    (text : l.type = .string ∨ r.type = .string) (h : Value.binary .add a b = .ok v) :
    Value.binary .concat a b = .ok v := by
  have null_or_string {t : ExprType} {w : Value} (hw : m.Conforms t w) (ht : t = .string) :
      w = .null ∨ w.isString := by
    subst ht
    cases hw
    · exact .inl rfl
    · exact .inr rfl
  by_cases strings : a.isString || b.isString
  · simpa [Value.binary, strings] using h
  · simp only [Bool.or_eq_true, not_or, Bool.not_eq_true] at strings
    have null : a = .null ∨ b = .null := by
      rcases text with ht | ht
      · exact .inl ((null_or_string hl ht).resolve_right (by simp [strings.1]))
      · exact .inr ((null_or_string hr ht).resolve_right (by simp [strings.2]))
    -- the sum would be arithmetic on null
    have sum : Value.arithmetic .add a b = .ok v := by simpa [Value.binary, strings] using h
    exact absurd sum (arithmetic_null null)

theorem decidesAlone_resolveOp (op : BinaryOp) (s t : ExprType) :
    decidesAlone (resolveOp op s t) a = decidesAlone op a := by
  unfold resolveOp
  split
  · next sum => rw [sum.1]; rfl
  · rfl

/-- The resolved operator has the values of the recorded one. -/
theorem binary_resolveOp {op : BinaryOp} (hl : m.Conforms l.type a) (hr : m.Conforms r.type b)
    (h : Value.binary op a b = .ok v) :
    Value.binary (resolveOp op l.type r.type) a b = .ok v := by
  unfold resolveOp
  split
  · next sum => exact concatenate_of_add hl hr sum.2 (sum.1 ▸ h)
  · exact h

/-- An equality with a null literal has the value of the test for null of the other operand. -/
theorem value_nullTest {op : BinaryOp} {read : Nat → Expr} {left right operand : Nat}
    (equality : op.isEquality) (null : operand = left ∧ (read right).isNullLiteral ∨
      operand = right ∧ (read left).isNullLiteral)
    (ha : (read left).value row = .ok a) (hb : (read right).value row = .ok b)
    (h : Value.binary op a b = .ok v) :
    (Expr.unary (nullTest op) (read operand)).value row = .ok v := by
  rcases null with ⟨rfl, null⟩ | ⟨rfl, null⟩
  · rw [eq_null_of_isNullLiteral null] at hb
    cases hb
    exact value_unary.2 ⟨a, ha, (unary_nullTest equality a).1.trans h⟩
  · rw [eq_null_of_isNullLiteral null] at ha
    cases ha
    exact value_unary.2 ⟨b, hb, (unary_nullTest equality b).2.trans h⟩

end QueryForm
end EntityQuery
