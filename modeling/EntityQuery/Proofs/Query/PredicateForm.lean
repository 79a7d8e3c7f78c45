import EntityQuery.Proofs.Query.WhereClause

/-! What a predicate form keeps of the truth of its expression. In an expression a conditional is a
`CASE`, whose second arm counts whenever the condition does not hold. The expansion of a branch is
unknown where its condition is, so a predicate form can be unknown where its expression is not, and
nothing else gets lost. -/
namespace EntityQuery

namespace Truth

/-- What a value is as a condition. A value that is no truth does not hold. -/
def ofValue : Value → Truth
  | .bool b => ofBool b
  | .null => unknown
  | _ => fails

def toValue : Truth → Value
  | holds => .bool true
  | fails => .bool false
  | unknown => .null

@[simp] theorem ofValue_toValue (t : Truth) : ofValue t.toValue = t := by
  cases t <;> rfl

/-- The same, or less by being unknown. -/
def Blurs (s t : Truth) : Prop := s = t ∨ s = unknown

variable {s t u s' t' u' : Truth}

theorem Blurs.not (h : s.Blurs t) : s.not.Blurs t.not := by
  rcases h with rfl | rfl
  · exact .inl rfl
  · exact .inr rfl

theorem Blurs.and (hs : s.Blurs s') (ht : t.Blurs t') : (s.and t).Blurs (s'.and t') := by
  rcases hs with rfl | rfl <;> rcases ht with rfl | rfl
  · exact .inl rfl
  · cases s <;> first | exact .inl rfl | exact .inr rfl
  · cases t <;> cases s' <;> first | exact .inl rfl | exact .inr rfl
  · exact .inr rfl

theorem Blurs.or (hs : s.Blurs s') (ht : t.Blurs t') : (s.or t).Blurs (s'.or t') := by
  rcases hs with rfl | rfl <;> rcases ht with rfl | rfl
  · exact .inl rfl
  · cases s <;> first | exact .inl rfl | exact .inr rfl
  · cases t <;> cases s' <;> first | exact .inl rfl | exact .inr rfl
  · exact .inr rfl

/-- Where its condition is known, the expansion of a branch is the arm taken. -/
theorem expansion_of_known (known : u ≠ unknown) :
    (u.and s).or (u.not.and t) = if u = holds then s else t := by
  cases u with
  | unknown => exact absurd rfl known
  | holds => cases s <;> cases t <;> rfl
  | fails => cases s <;> cases t <;> rfl

/-- Where its condition is unknown, the expansion of a branch fails if both arms do and is unknown
if not. -/
theorem Blurs.expansion (hu : u.Blurs u') (hs : s.Blurs s') (ht : t.Blurs t') :
    ((u.and s).or (u.not.and t)).Blurs (if u' = holds then s' else t') := by
  by_cases known : u = unknown
  · subst known
    -- An arm that fails is not blurred, so the arm that counts fails as well.
    by_cases both : s = fails ∧ t = fails
    · obtain ⟨rfl, rfl⟩ := both
      obtain rfl : fails = s' := hs.resolve_right nofun
      obtain rfl : fails = t' := ht.resolve_right nofun
      exact .inl (by split <;> rfl)
    · refine .inr ?_
      cases s <;> cases t <;> first | rfl | exact absurd ⟨rfl, rfl⟩ both
  · obtain rfl := hu.resolve_right known
    rw [expansion_of_known known]
    split
    · exact hs
    · exact ht

/-- What is blurred is lost where it becomes unknown. -/
theorem Blurs.holds_iff (h : s.Blurs t) :
    (s = holds ↔ t = holds) ↔ ¬(t = holds ∧ s = unknown) := by
  rcases h with rfl | rfl
  · cases s <;> simp
  · cases t <;> simp

end Truth

namespace QueryEngine

variable (engine : QueryEngine)

/-- Truths are values, and `NULL` is the unknown one. -/
def sqlBinary (op : BinaryOp) (a b : Value) : Value :=
  if op.isLogical then (Truth.logical op (.ofValue a) (.ofValue b)).toValue
  else if op.isComparison then (engine.testOf op a b).toValue
  else engine.binaryOf op a b

def sqlUnary (op : UnaryOp) (a : Value) : Value :=
  match op with
  | .not => (Truth.ofValue a).not.toValue
  | .isNull => .bool a.isNull
  | .isNotNull => .bool !a.isNull
  | .neg => engine.unaryOf .neg a

mutual

/-- The value of an expression under three-valued logic, with a conditional as a `CASE`. -/
def sqlValue (row : SourceRow) : Expr → Value
  | .constant literal => literal.value
  | .parameter _ v => v
  | .source id _ => row[id]?.getD (engine.source id)
  | .field base path _ => path.foldl engine.readAttributeOf (sqlValue row base)
  | .binary op left right => engine.sqlBinary op (sqlValue row left) (sqlValue row right)
  | .unary op operand => engine.sqlUnary op (sqlValue row operand)
  | .conditional c a b =>
    if Truth.ofValue (sqlValue row c) = .holds then sqlValue row a else sqlValue row b
  | .tuple elements nesting => (nesting.build (sqlValues row elements)).1
  | .apply fn arguments => engine.applyOf fn (sqlValues row arguments)
  | .aggregate _ _ _ | .unsupported _ => .null

def sqlValues (row : SourceRow) : List Expr → List Value
  | [] => []
  | e :: es => sqlValue row e :: sqlValues row es

end

/-- The truth of an expression. -/
def truth (row : SourceRow) (e : Expr) : Truth := .ofValue (engine.sqlValue row e)

section Truth

variable (row : SourceRow) {op : BinaryOp} {l r c a b e : Expr}

theorem truth_logical (logical : op.isLogical) : engine.truth row (.binary op l r) =
    .logical op (engine.truth row l) (engine.truth row r) := by
  simp [truth, sqlValue, sqlBinary, logical]

theorem truth_not : engine.truth row (.unary .not e) = (engine.truth row e).not := by
  simp [truth, sqlValue, sqlUnary]

theorem truth_conditional : engine.truth row (.conditional c a b) =
    if engine.truth row c = .holds then engine.truth row a else engine.truth row b := by
  rw [truth, sqlValue]
  exact apply_ite Truth.ofValue _ _ _

/-- A comparison with true has the truth of what is compared. -/
theorem truth_eq_true :
    engine.truth row (.binary .eq e (.constant (.bool true))) = engine.truth row e := by
  have tested (v : Value) : engine.testOf .eq v (.bool true) = .ofValue v := by
    cases v with
    | bool b => cases b <;> rfl
    | _ => rfl
  exact (Truth.ofValue_toValue _).trans (tested _)

end Truth

/-- No branch that stands as a condition has an unknown condition, as far as its arms are taken. -/
def Decided (row : SourceRow) : Expr → Prop
  | .binary op l r => op.isLogical → Decided row l ∧ Decided row r
  | .unary op e => op = .not → Decided row e
  | .conditional c a b =>
    engine.truth row c ≠ .unknown ∧ Decided row c ∧
      if engine.truth row c = .holds then Decided row a else Decided row b
  | _ => True

variable {row : SourceRow} {e : Expr}

/-- A predicate form has the truth of its expression or is unknown. -/
theorem blurs_predicateForm : (engine.truth row e.predicateForm).Blurs (engine.truth row e) := by
  fun_induction Expr.predicateForm e with
  | case1 l r ihl ihr =>
    rw [truth_logical _ _ rfl, truth_logical _ _ rfl]
    exact ihl.and ihr
  | case2 l r ihl ihr =>
    rw [truth_logical _ _ rfl, truth_logical _ _ rfl]
    exact ihl.or ihr
  | case3 e ih =>
    rw [truth_not, truth_not]
    exact ih.not
  | case4 c a b ihc iha ihb =>
    rw [truth_logical _ _ rfl, truth_logical _ _ rfl, truth_logical _ _ rfl, truth_not,
      truth_conditional]
    exact ihc.expansion iha ihb
  | case5 b => cases b <;> exact .inl rfl
  | case6 e _ _ _ _ _ condition => exact .inl rfl
  | case7 e _ _ _ _ _ value => exact .inl (engine.truth_eq_true row)

/-- Where the branches are decided, a predicate form has the truth of its expression. -/
theorem truth_predicateForm (decided : engine.Decided row e) :
    engine.truth row e.predicateForm = engine.truth row e := by
  fun_induction Expr.predicateForm e with
  | case1 l r ihl ihr =>
    obtain ⟨left, right⟩ := decided rfl
    rw [truth_logical _ _ rfl, truth_logical _ _ rfl, ihl left, ihr right]
  | case2 l r ihl ihr =>
    obtain ⟨left, right⟩ := decided rfl
    rw [truth_logical _ _ rfl, truth_logical _ _ rfl, ihl left, ihr right]
  | case3 e ih => rw [truth_not, truth_not, ih (decided rfl)]
  | case4 c a b ihc iha ihb =>
    obtain ⟨known, condition, arm⟩ := decided
    rw [truth_logical _ _ rfl, truth_logical _ _ rfl, truth_logical _ _ rfl, truth_not,
      truth_conditional, ihc condition]
    refine (Truth.expansion_of_known known).trans ?_
    split at arm
    · next holds => rw [if_pos holds, if_pos holds, iha arm]
    · next other => rw [if_neg other, if_neg other, ihb arm]
  | case5 b => cases b <;> rfl
  | case6 e _ _ _ _ _ condition => rfl
  | case7 e _ _ _ _ _ value => exact engine.truth_eq_true row

/-- A predicate form holds exactly where its expression does, unless it is unknown where the
expression holds. Where all branches are decided it has the same truth. -/
theorem predicateForm_holds_iff (engine : QueryEngine) (row : SourceRow) (e : Expr) :
    ((engine.truth row e.predicateForm = .holds ↔ engine.truth row e = .holds) ↔
      ¬(engine.truth row e = .holds ∧ engine.truth row e.predicateForm = .unknown)) ∧
    (engine.Decided row e → engine.truth row e.predicateForm = engine.truth row e) :=
  ⟨engine.blurs_predicateForm.holds_iff, engine.truth_predicateForm⟩

/-- `fun c => if c.debt > 100 then false else true` -/
def creditTrace : Trace where
  arity := 1
  ops := [.param 0, .field 0 "debt", .const (.int 100), .binary .gt 1 2, .const (.bool false),
    .const (.bool true), .branch 3 4 5]
  result := 6

def creditTest : Expr :=
  .conditional
    (.binary .gt (.field (.source 0 "Customer") ["debt"] .numeric) (.constant (.int 100)))
    (.constant (.bool false)) (.constant (.bool true))

theorem creditTest_translated : Translated debtors ["Customer"] creditTest := by
  have form : creditTrace.queryForm debtors [.element (.source 0 "Customer")] =
      .expr creditTest := rfl
  refine .lambda ?_ form rfl
  simpa using Translated.source rfl

/-- A customer with a known debt. -/
theorem predicateForm_holds_of_debt :
    nullEngine.truth [debtor] creditTest.predicateForm = .holds := by
  have decided : nullEngine.Decided [debtor] creditTest := by
    refine ⟨nofun, ?_, trivial⟩
    intro logical
    cases logical
  exact ((predicateForm_holds_iff nullEngine [debtor] creditTest).2 decided).trans rfl

/-- A customer whose debt is not known. -/
def unknownDebtor : Value := .entity "Customer" [("debt", .null), ("vip", .bool false)]

/-- Nothing is known to be above the limit, so the second arm counts and the test holds, but its
predicate form is unknown. -/
theorem predicateForm_unknown_of_debt :
    Translated debtors ["Customer"] creditTest ∧ creditTest.type = .boolean ∧
    nullEngine.truth [unknownDebtor] creditTest = .holds ∧
    nullEngine.truth [unknownDebtor] creditTest.predicateForm = .unknown ∧
    ¬(nullEngine.truth [unknownDebtor] creditTest.predicateForm = .holds ↔
      nullEngine.truth [unknownDebtor] creditTest = .holds) :=
  ⟨creditTest_translated, rfl, rfl, rfl, fun h => nomatch h.2 rfl⟩

end QueryEngine
end EntityQuery
