import EntityQuery.Proofs.QueryForm.Agreement

/-! The types of what traces translate to. The value of a query form is of its type, unless it comes
out of the second arm of a conditional that has another type. What operators work on is single
valued, but for null tests and for right sides of concatenations, whose types are not looked at. -/
namespace EntityQuery

variable {m : Metamodel} {sources : List String}

/-- The value of a query form is null or of the type of the form. -/
theorem Trace.conforms_of_queryForm {row : SourceRow} {t : Trace} {bindings : List Binding}
    {e : Expr} {v : Value} (hrow : m.ConformingRow sources row)
    (translated : ∀ b, Binding.element b ∈ bindings → Translated m sources b)
    (form : t.queryForm m bindings = .expr e) (supported : e.isUnsupported = false)
    (keeps : e.KeepsType row) (hv : e.value row = .ok v) : m.Conforms e.type v :=
  have formed := (Translated.lambda translated form supported).formed
  formed.conforms_of_keepsType hrow keeps hv

/-- What the trace of `fun c => (if c.vip then 0 else c.debt) + 2` translates to. -/
def debtSum : Expr :=
  .binary .add
    (.conditional (.field (.source 0 "Customer") ["vip"] .boolean) (.constant (.int 0))
      (.field (.source 0 "Customer") ["debt"] .numeric))
    (.constant (.int 2))

/-- The sum comes out of the second arm of its branch, a number as the first one. -/
theorem debtSum_conforms :
    debtTrace.queryForm debtors [.element (.source 0 "Customer")] = .expr debtSum ∧
    debtSum.KeepsType [debtor] ∧ debtSum.value [debtor] = .ok (.int 3) ∧
    debtors.Conforms debtSum.type (.int 3) := by
  have origin (b : Expr) (h : Binding.element b ∈ [Binding.element (.source 0 "Customer")]) :
      Translated debtors ["Customer"] b := by
    cases List.mem_singleton.1 h
    exact .source rfl
  have keeps : debtSum.KeepsType [debtor] := fun _ => ⟨⟨nofun, fun _ => ⟨.inr rfl, trivial⟩⟩, trivial⟩
  exact ⟨rfl, keeps, rfl,
    Trace.conforms_of_queryForm (t := debtTrace) debtor_conforms origin rfl rfl keeps rfl⟩

/-- With a text in the first arm of a conditional and a number in the second one, the type is that of
texts and the value can be the number. -/
theorem mixedTrace_not_conforms :
    debtors.ConformingRow ["Customer"] [debtor] ∧ mixedTrace.externalCalls = [] ∧
    mixedTrace.queryForm debtors [.element (.source 0 "Customer")] = .expr mixedArms ∧
    mixedArms.type = .string ∧ mixedArms.value [debtor] = .ok (.int 1) ∧
    ¬debtors.Conforms mixedArms.type (.int 1) :=
  ⟨debtor_conforms, rfl, rfl, rfl, rfl, fun h => nomatch h⟩

/-! ### Operands -/

namespace Expr

/-- What an operator works on. -/
def operands : Expr → List Expr
  | binary _ l r => [l, r]
  | unary _ e => [e]
  | conditional c a b => [c, a, b]
  | apply _ es => es
  | _ => []

/-- A test for null of more than one value, or a concatenation with more than one value. -/
def isLax : Expr → Bool
  | unary .isNull e | unary .isNotNull e => e.type.isPlural
  | binary .concat _ r => r.type.isPlural
  | _ => false

variable {n o : Expr}

theorem exists_plural_of_isLax (lax : n.isLax) : ∃ o ∈ n.operands, o.type.isPlural := by
  unfold isLax at lax
  split at lax
  · exact ⟨_, List.mem_cons_self, lax⟩
  · exact ⟨_, List.mem_cons_self, lax⟩
  · exact ⟨_, List.mem_cons_of_mem _ List.mem_cons_self, lax⟩
  · cases lax

end Expr

namespace ExprType

variable {s t : ExprType}

theorem single_of_accepts (single : t.isPlural = false) (h : t.accepts s) : s.isPlural = false := by
  simp only [accepts, Bool.or_eq_true, decide_eq_true_eq] at h
  rcases h with rfl | rfl
  · exact single
  · rfl

theorem single_of_isScalarOrUnknown (h : QueryForm.isScalarOrUnknown t) : t.isPlural = false := by
  cases t <;> first | rfl | cases h

end ExprType

namespace QueryForm

open EntityQuery.Expr

variable {op : BinaryOp} {s t : ExprType} {l r e c a b : Expr}

/-- An operator is only defined on single values, but a concatenation looks at its left side alone. -/
theorem single_of_admits (admitted : admits op s t) :
    s.isPlural = false ∧ (op ≠ .concat → t.isPlural = false) := by
  have both {u : ExprType} (single : u.isPlural = false) (h : (u.accepts s && u.accepts t) = true) :
      s.isPlural = false ∧ (op ≠ .concat → t.isPlural = false) := by
    rw [Bool.and_eq_true] at h
    exact ⟨ExprType.single_of_accepts single h.1, fun _ => ExprType.single_of_accepts single h.2⟩
  unfold admits at admitted
  split at admitted
  · exact both rfl admitted
  split at admitted
  · exact both rfl admitted
  split at admitted
  · next concat =>
    exact ⟨ExprType.single_of_isScalarOrUnknown admitted, fun other => absurd concat other⟩
  split at admitted
  · rw [Bool.and_eq_true, Bool.not_eq_true', Bool.not_eq_true'] at admitted
    exact ⟨admitted.1, fun _ => admitted.2⟩
  · rw [Bool.and_eq_true] at admitted
    exact ⟨ExprType.single_of_isScalarOrUnknown admitted.1,
      fun _ => ExprType.single_of_isScalarOrUnknown admitted.2⟩

/-- Unary operators but null tests that come from equalities. -/
theorem single_of_admitsUnary {op : UnaryOp} (admitted : admitsUnary op t) :
    t.isPlural = false := by
  cases op with
  | not => exact ExprType.single_of_accepts rfl admitted
  | neg => exact ExprType.single_of_accepts rfl admitted
  | isNull => simpa [admitsUnary] using admitted
  | isNotNull => simpa [admitsUnary] using admitted

theorem single_of_argument {fn : ScalarFn} (accepted : fn.argumentType.accepts t) :
    t.isPlural = false :=
  ExprType.single_of_accepts (by cases fn <;> rfl) accepted

end QueryForm

namespace Expr

variable {n o : Expr}

/-- Every formed operator that is not lax works on single values. -/
theorem Formed.single_of_mem_operands (h : n.Formed m sources) (strict : n.isLax = false)
    (ho : o ∈ n.operands) : o.type.isPlural = false := by
  cases h with
  | @binary op l r _ _ _ admitted =>
    obtain ⟨left, right⟩ := QueryForm.single_of_admits admitted
    rcases List.mem_cons.1 ho with rfl | ho
    · exact left
    obtain rfl := List.mem_singleton.1 ho
    by_cases concat : op = .concat
    · subst concat
      exact strict
    · exact right concat
  | unary _ admitted =>
    obtain rfl := List.mem_singleton.1 ho
    rcases admitted with rfl | rfl | admitted
    · exact strict
    · exact strict
    · exact QueryForm.single_of_admitsUnary admitted
  | conditional _ _ _ boolean singleTrue singleFalse =>
    have condition := ExprType.single_of_accepts rfl boolean
    simp only [operands, List.mem_cons, List.not_mem_nil, or_false] at ho
    rcases ho with rfl | rfl | rfl
    · exact condition
    · exact singleTrue
    · exact singleFalse
  | apply _ accepted => exact QueryForm.single_of_argument (accepted o ho)
  | _ => cases ho

end Expr

namespace QueryForm

theorem nullTest_lax {op : BinaryOp} {e : Expr} (h : e.type.isPlural) :
    (Expr.unary (nullTest op) e).isLax := by
  unfold nullTest
  split <;> exact h

theorem not_plural_of_isNullLiteral {e : Expr} (null : e.isNullLiteral) :
    e.type.isPlural = false := by
  rw [eq_null_of_isNullLiteral null]
  rfl

/-- The operations that an operator works on. -/
def operatorInputs : Op → List Nat
  | .binary _ l r => [l, r]
  | .unary _ e => [e]
  | .branch c a b => [c, a, b]
  | .call _ arguments => arguments
  | _ => []

/-- What is made of more than one value is lax. -/
theorem Makes.isLax_of_plural {bindings : List Binding} {read : Nat → Expr} {op : Op} {e : Expr}
    {id : Nat} (h : Makes m bindings read op e) (operand : id ∈ operatorInputs op)
    (plural : (read id).type.isPlural) : e.isLax := by
  have absurd_of_single (single : (read id).type.isPlural = false) : e.isLax := by
    simp [single] at plural
  cases h with
  | @nullTest op left right other _ null =>
    -- An equality with null becomes a null test before any type is looked at.
    have tested : id = other ∨ (read id).isNullLiteral := by
      simp only [operatorInputs, List.mem_cons, List.not_mem_nil, or_false] at operand
      rcases null with ⟨same, null⟩ | ⟨same, null⟩ <;> rcases operand with rfl | rfl
      · exact .inl same.symm
      · exact .inr null
      · exact .inr null
      · exact .inl same.symm
    rcases tested with rfl | null
    · exact nullTest_lax plural
    · exact absurd_of_single (not_plural_of_isNullLiteral null)
  | @binary op left right admitted =>
    obtain ⟨single, other⟩ := single_of_admits admitted
    rcases List.mem_cons.1 operand with rfl | operand
    · exact absurd_of_single single
    obtain rfl := List.mem_singleton.1 operand
    have concat : resolveOp op (read left).type (read id).type = .concat := by
      by_contra strict
      simp [other strict] at plural
    rw [concat]
    exact plural
  | unary admitted =>
    obtain rfl := List.mem_singleton.1 operand
    exact absurd_of_single (single_of_admitsUnary admitted)
  | branch boolean singleTrue singleFalse =>
    refine absurd_of_single ?_
    simp only [operatorInputs, List.mem_cons, List.not_mem_nil, or_false] at operand
    rcases operand with rfl | rfl | rfl
    · exact ExprType.single_of_accepts rfl boolean
    · exact singleTrue
    · exact singleFalse
  | apply accepted => exact absurd_of_single (single_of_argument (accepted id operand))
  | _ => cases operand

/-- An operation on more than one value is unsupported or lax. -/
theorem meaning_of_plural {bindings : List Binding} {known : List Meaning} {op : Op}
    (h : ∃ id ∈ operatorInputs op, (meaning.exprOf known id).type.isPlural) :
    (meaning m bindings known op).asExpr.isUnsupported ∨
      (meaning m bindings known op).asExpr.isLax := by
  obtain ⟨id, operand, plural⟩ := h
  cases supported : (meaning m bindings known op).asExpr.isUnsupported with
  | true => exact .inl rfl
  | false => exact .inr ((makes_of_supported supported).2.isLax_of_plural operand plural)

end QueryForm

/-- The operators of a query form all work on single values exactly if none is lax, and an operation
on more than one value is unsupported or lax. -/
theorem Trace.operands_single_iff {t : Trace} {bindings : List Binding} {e : Expr}
    (given : ∀ b, Binding.element b ∈ bindings → b.Formed m sources)
    (form : t.queryForm m bindings = .expr e) (supported : e.isUnsupported = false) :
    ((∀ n ∈ e.nodes, ∀ o ∈ n.operands, o.type.isPlural = false) ↔
      ∀ n ∈ e.nodes, n.isLax = false) ∧
    ∀ known op, (∃ id ∈ QueryForm.operatorInputs op, (QueryForm.meaning.exprOf known id).type.isPlural) →
      (QueryForm.meaning m bindings known op).asExpr.isUnsupported ∨
        (QueryForm.meaning m bindings known op).asExpr.isLax := by
  have formed : e.Formed m sources := Trace.formed_queryForm given form supported
  refine ⟨⟨fun single n hn => ?_, fun strict n hn o ho => ?_⟩, fun _ _ => QueryForm.meaning_of_plural⟩
  · by_contra lax
    obtain ⟨o, ho, plural⟩ := Expr.exists_plural_of_isLax (by simpa using lax)
    simp [single n hn o ho] at plural
  · exact (formed.of_mem_nodes hn).single_of_mem_operands (strict n hn) ho

/-- `fun p => p.1.debt < p.2.debt` -/
def owesLessTrace : Trace where
  arity := 1
  ops := [.param 0, .element 0 0, .field 1 "debt", .element 0 1, .field 3 "debt", .binary .lt 2 4]
  result := 5

def owesLess : Expr :=
  .binary .lt (.field (.source 0 "Customer") ["debt"] .numeric)
    (.field (.source 1 "Customer") ["debt"] .numeric)

/-- The two debts of a pair of customers. -/
theorem operands_single_owesLess :
    owesLessTrace.queryForm debtors
        [.element (.tupleOf [.source 0 "Customer", .source 1 "Customer"])] = .expr owesLess ∧
    (∀ n ∈ owesLess.nodes, n.isLax = false) ∧
    ∀ n ∈ owesLess.nodes, ∀ o ∈ n.operands, o.type.isPlural = false := by
  have pair (b : Expr) (h : Binding.element b ∈
      [Binding.element (.tupleOf [.source 0 "Customer", .source 1 "Customer"])]) :
      b.Formed debtors ["Customer", "Customer"] := by
    cases List.mem_singleton.1 h
    exact .tupleOf (by simp [Expr.Formed.source])
  have strict : ∀ n ∈ owesLess.nodes, n.isLax = false := by decide
  exact ⟨rfl, strict, (Trace.operands_single_iff (t := owesLessTrace) pair rfl rfl).1.2 strict⟩

/-- `fun c => (c.debt, c.vip) == null` -/
def pairNullTrace : Trace where
  arity := 1
  ops := [.param 0, .field 0 "debt", .field 0 "vip", .tuple [1, 2], .const .null, .binary .eq 3 4]
  result := 5

/-- `fun c => "a" + (c.debt, c.vip)` -/
def pairTextTrace : Trace where
  arity := 1
  ops := [.param 0, .field 0 "debt", .field 0 "vip", .tuple [1, 2], .const (.string "a"),
    .binary .add 4 3]
  result := 5

def debtPair : Expr :=
  .tupleOf [.field (.source 0 "Customer") ["debt"] .numeric,
    .field (.source 0 "Customer") ["vip"] .boolean]

/-- A pair is compared with null and appended to a text, though a test for null and a concatenation
to a text refuse it. -/
theorem operands_plural_debtPair :
    (pairNullTrace.queryForm debtors [.element (.source 0 "Customer")] =
        .expr (.unary .isNull debtPair) ∧
      ¬∀ n ∈ (Expr.unary .isNull debtPair).nodes, ∀ o ∈ n.operands, o.type.isPlural = false) ∧
    (pairTextTrace.queryForm debtors [.element (.source 0 "Customer")] =
        .expr (.binary .concat (.constant (.string "a")) debtPair) ∧
      ¬∀ n ∈ (Expr.binary .concat (.constant (.string "a")) debtPair).nodes,
        ∀ o ∈ n.operands, o.type.isPlural = false) ∧
    (QueryForm.unary .isNull debtPair).isUnsupported ∧
    (QueryForm.binary .add debtPair (.constant (.string "a"))).isUnsupported := by
  have plural {n : Expr} (member : debtPair ∈ n.operands) :
      ¬∀ k ∈ n.nodes, ∀ o ∈ k.operands, o.type.isPlural = false :=
    fun single => nomatch single n (Expr.mem_nodes_self n) debtPair member
  exact ⟨⟨rfl, plural List.mem_cons_self⟩,
    ⟨rfl, plural (List.mem_cons_of_mem _ List.mem_cons_self)⟩, rfl, rfl⟩

end EntityQuery
