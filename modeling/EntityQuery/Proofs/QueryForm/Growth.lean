import EntityQuery.Proofs.Expr.Value
import EntityQuery.Proofs.QueryForm.Columns

/-! What lambdas make of an element that is no tuple. Each column of it is the element, or reads no
source, or is larger than the element, so that nothing else compares equal to the element unless
neither of the two reads a source. -/
namespace EntityQuery

namespace Expr

mutual

/-- A count of nodes, of which sources count as `source` and all others as `other`. A path counts
by its length. -/
def tally (source other : Nat) : Expr → Nat
  | .source _ _ => source
  | field base path _ => tally source other base + other * path.length
  | binary _ left right => other + (tally source other left + tally source other right)
  | unary _ operand => other + tally source other operand
  | conditional c a b =>
    other + (tally source other c + tally source other a + tally source other b)
  | tuple elements _ => other + tallyAll source other elements
  | aggregate _ argument _ => other + tally source other argument
  | apply _ arguments => other + tallyAll source other arguments
  | _ => other

def tallyAll (source other : Nat) : List Expr → Nat
  | [] => 0
  | e :: es => tally source other e + tallyAll source other es

end

variable {source other : Nat}

mutual

/-- Expressions that compare equal differ in literals at most. -/
theorem tally_eq_of_same : (a b : Expr) → a.same b → a.tally source other = b.tally source other
  | .source _ _, b, h => by cases b <;> simp_all [same, tally]
  | field base path _, b, h => by
    cases b <;> simp only [same, Bool.false_eq_true, Bool.and_eq_true, beq_iff_eq] at h
    rw [tally, tally, tally_eq_of_same base _ h.1.1, h.1.2]
  | binary _ left right, b, h => by
    cases b <;> simp only [same, Bool.false_eq_true, Bool.and_eq_true] at h
    rw [tally, tally, tally_eq_of_same left _ h.1.2, tally_eq_of_same right _ h.2]
  | unary _ operand, b, h => by
    cases b <;> simp only [same, Bool.false_eq_true, Bool.and_eq_true] at h
    rw [tally, tally, tally_eq_of_same operand _ h.2]
  | conditional c x y, b, h => by
    cases b <;> simp only [same, Bool.false_eq_true, Bool.and_eq_true] at h
    rw [tally, tally, tally_eq_of_same c _ h.1.1, tally_eq_of_same x _ h.1.2,
      tally_eq_of_same y _ h.2]
  | tuple elements _, b, h => by
    cases b <;> simp only [same, Bool.false_eq_true, Bool.and_eq_true] at h
    rw [tally, tally, tallyAll_eq_of_same elements _ h.1]
  | aggregate _ argument _, b, h => by
    cases b <;> simp only [same, Bool.false_eq_true, Bool.and_eq_true] at h
    rw [tally, tally, tally_eq_of_same argument _ h.1.2]
  | apply _ arguments, b, h => by
    cases b <;> simp only [same, Bool.false_eq_true, Bool.and_eq_true] at h
    rw [tally, tally, tallyAll_eq_of_same arguments _ h.2]
  | constant _, b, h => by cases b <;> simp_all [same, tally]
  | parameter _ _, b, h => by cases b <;> simp_all [same, tally]
  | unsupported _, b, h => by cases b <;> simp_all [same, tally]

theorem tallyAll_eq_of_same : (as bs : List Expr) → sameAll as bs →
    tallyAll source other as = tallyAll source other bs
  | [], [], _ => rfl
  | [], _ :: _, h => by simp [sameAll] at h
  | _ :: _, [], h => by simp [sameAll] at h
  | a :: as, b :: bs, h => by
    simp only [sameAll, Bool.and_eq_true] at h
    rw [tallyAll, tallyAll, tally_eq_of_same a b h.1, tallyAll_eq_of_same as bs h.2]

end

theorem tally_le_of_mem {es : List Expr} {e : Expr} (h : e ∈ es) :
    e.tally source other ≤ tallyAll source other es := by
  induction es with
  | nil => cases h
  | cons first es ih =>
    rw [tallyAll]
    rcases List.mem_cons.1 h with rfl | h
    · exact Nat.le_add_right _ _
    · exact Nat.le_add_left_of_le (ih h)

theorem tallyAll_eq_zero {es : List Expr} (h : ∀ e ∈ es, e.tally source other = 0) :
    tallyAll source other es = 0 := by
  induction es with
  | nil => rfl
  | cons e es ih =>
    obtain ⟨first, others⟩ := List.forall_mem_cons.1 h
    rw [tallyAll, first, ih others]

/-- Columns that are the element `b`, read no source, or are larger. -/
def BuildsOn (b e : Expr) : Prop :=
  ∀ c ∈ e.columns, c.isTuple = false ∧ (c = b ∨ c.tally 1 0 = 0 ∨ b.tally 1 1 < c.tally 1 1)

variable {b e : Expr}

/-- Operands of which none is smaller than the element unless it reads no source. -/
theorem tallyAll_of_operands {es : List Expr}
    (h : ∀ c ∈ es, c.tally 1 0 = 0 ∨ b.tally 1 1 ≤ c.tally 1 1) :
    tallyAll 1 0 es = 0 ∨ b.tally 1 1 ≤ tallyAll 1 1 es := by
  by_cases none : ∀ c ∈ es, c.tally 1 0 = 0
  · exact .inl (tallyAll_eq_zero none)
  · push Not at none
    obtain ⟨c, hc, reads⟩ := none
    exact .inr (Nat.le_trans ((h c hc).resolve_left reads) (tally_le_of_mem hc))

theorem BuildsOn.tally (h : b.BuildsOn e) : e.tally 1 0 = 0 ∨ b.tally 1 1 ≤ e.tally 1 1 := by
  have column : ∀ c ∈ e.columns, c.tally 1 0 = 0 ∨ b.tally 1 1 ≤ c.tally 1 1 := by
    intro c hc
    rcases (h c hc).2 with rfl | none | larger
    · exact .inr (Nat.le_refl _)
    · exact .inl none
    · exact .inr (Nat.le_of_lt larger)
  cases e with
  | tuple es n =>
    simp only [Expr.tally, Nat.zero_add]
    exact (tallyAll_of_operands column).imp_right (Nat.le_add_left_of_le · )
  | _ => exact column _ List.mem_cons_self

theorem tally_navigate (e : Expr) (name : String) (type : ExprType) (source other : Nat) :
    (e.navigate name type).tally source other = other + e.tally source other := by
  have single (e : Expr) : (Expr.field e [name] type).tally source other =
      other + e.tally source other := by
    rw [tally, List.length_singleton, Nat.mul_one, Nat.add_comm]
  cases e with
  | field base path t =>
    rw [navigate, tally, tally, List.length_append, List.length_singleton, Nat.mul_add,
      Nat.mul_one]
    omega
  | _ => exact single _

theorem Over.tally {operands : List Expr} (h : e.Over operands) (source other : Nat) :
    e.tally source other = other + tallyAll source other operands := by
  cases h with
  | navigate base name type => rw [tally_navigate, tallyAll, tallyAll, Nat.add_zero]
  | apply => rfl
  | _ => simp [Expr.tally, tallyAll, Nat.add_assoc]

/-- A node over operands is larger than all of them. -/
theorem inherited_buildsOn : Inherited fun c =>
    c.isTuple = false ∧ (c = b ∨ c.tally 1 0 = 0 ∨ b.tally 1 1 < c.tally 1 1) where
  single _ h := h.1
  operandFree e h := by cases e <;> first | exact ⟨rfl, .inr (.inl rfl)⟩ | cases h
  node := by
    intro e operands h each
    refine ⟨h.isTuple, .inr ?_⟩
    rw [h.tally, h.tally]
    exact (tallyAll_of_operands fun c hc => BuildsOn.tally (each c hc)).imp (by omega) (by omega)

end Expr

variable {m : Metamodel} {b e : Expr}

theorem Trace.queryForm_buildsOn {t : Trace} {bindings : List Binding}
    (single : b.isTuple = false) (given : ∀ e, Binding.element e ∈ bindings → e = b)
    (form : t.queryForm m bindings = .expr e) (supported : e.isUnsupported = false) :
    b.BuildsOn e := by
  refine t.columnwise_queryForm Expr.inherited_buildsOn (fun e he => ?_) form supported
  obtain rfl := given e he
  exact (Expr.columnwise_single single).2 ⟨single, .inl rfl⟩

/-- What is built on an element and compares equal to it is the element, unless the two read
nothing. -/
theorem Expr.BuildsOn.eq_of_same (h : b.BuildsOn e) (same : e == b) (single : e.isTuple = false) :
    e = b ∨ b.tally 1 0 = 0 := by
  have alike (source other : Nat) : e.tally source other = b.tally source other :=
    tally_eq_of_same e b same
  rw [BuildsOn, columns_eq single] at h
  rcases (List.forall_mem_singleton.1 h).2 with equal | none | larger
  · exact .inl equal
  · exact .inr ((alike 1 0).symm.trans none)
  · exact absurd (alike 1 1) (Nat.ne_of_gt larger)

/-- An expression that reads no source has one value on all rows. -/
theorem Expr.Formed.value_of_tally {sources : List String} (h : e.Formed m sources)
    (none : e.tally 1 0 = 0) (row row' : SourceRow) : e.value row = e.value row' := by
  induction h with
  | constant => rfl
  | parameter => rfl
  | source => cases none
  | field _ _ _ _ ih =>
    rw [tally] at none
    rw [value, value, ih (by omega)]
  | binary _ _ _ _ left right =>
    rw [tally] at none
    rw [value, value, left (by omega), right (by omega)]
  | unary _ _ ih =>
    rw [tally] at none
    rw [value, value, ih (by omega)]
  | conditional _ _ _ _ _ _ condition whenTrue whenFalse =>
    rw [tally] at none
    rw [value, value, condition (by omega), whenTrue (by omega), whenFalse (by omega)]
  | @tuple es _ _ _ _ ih =>
    rw [tally] at none
    have members : ∀ c ∈ es, c.tally 1 0 = 0 := fun c hc => by
      have le : c.tally 1 0 ≤ tallyAll 1 0 es := tally_le_of_mem hc
      omega
    rw [value, value, values_congr fun c hc => ih c hc (members c hc)]
  | @apply _ es _ _ ih =>
    rw [tally] at none
    have arguments : ∀ c ∈ es, c.tally 1 0 = 0 := fun c hc => by
      have le : c.tally 1 0 ≤ tallyAll 1 0 es := tally_le_of_mem hc
      omega
    rw [value, value, values_congr fun c hc => ih c hc (arguments c hc)]

end EntityQuery
