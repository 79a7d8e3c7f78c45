import EntityQuery.Proofs.Value.Order
import EntityQuery.Value.Operation

/-! Comparison operators. The order of two values decides the operators of order, and equality has a
procedure of its own, which takes an integer for equal to a float only outside of sequences. Where
the order finds sequences equal with an integer of one opposite a float of the other, no operator of
order agrees with equality; everywhere else all six agree. -/
namespace EntityQuery.Value

mutual

/-- Whether an integer of one value is opposite a float of the other. -/
def mixed : Value → Value → Bool
  | int _, float _ | float _, int _ => true
  | list as, list bs | tuple as, tuple bs => mixedItems as bs
  | _, _ => false

def mixedItems : List Value → List Value → Bool
  | a :: as, b :: bs => mixed a b || mixedItems as bs
  | _, _ => false

end

/-- Whether an integer is opposite a float inside of two sequences. -/
def mixedInside : Value → Value → Bool
  | list as, list bs | tuple as, tuple bs => mixedItems as bs
  | _, _ => false

/-- Whether an operator answers that it is true of two values. -/
def Holds (op : BinaryOp) (a b : Value) : Prop := binary op a b = .ok (bool true)

/-- The comparison operators agree with each other: one of less, equal and greater is true, and the
others are what these three make them. -/
structure Consistent (a b : Value) : Prop where
  one : Holds .lt a b ∧ ¬Holds .eq a b ∧ ¬Holds .gt a b ∨
    ¬Holds .lt a b ∧ Holds .eq a b ∧ ¬Holds .gt a b ∨
    ¬Holds .lt a b ∧ ¬Holds .eq a b ∧ Holds .gt a b
  le : Holds .le a b ↔ Holds .lt a b ∨ Holds .eq a b
  ge : Holds .ge a b ↔ Holds .gt a b ∨ Holds .eq a b
  ne : Holds .ne a b ↔ ¬Holds .eq a b

theorem beq_eq_compare {α : Type} [BEq α] [LawfulBEq α] [Ord α] [Std.LawfulEqOrd α] (a b : α) :
    (a == b) = (Ord.compare a b == .eq) := by
  rw [Bool.eq_iff_iff, beq_iff_eq, beq_iff_eq, Std.LawfulEqCmp.compare_eq_iff_eq]

theorem beq_eq_compareFloat {x y : Float} {o : Ordering} (h : compareFloat x y = some o) :
    (x == y) = (o == .eq) := by
  rw [Bool.eq_iff_iff, ← Number.compareFloat_eq_iff, h, Option.some.injEq, beq_iff_eq]

mutual

/-- Values that are ordered are the same kind by kind when they are equal in the order and none of
their integers is opposite a float. -/
theorem same_eq_of_compare : (a b : Value) → ∀ {o : Ordering}, compare a b = some o →
    same a b = (o == .eq && !mixed a b)
  | null, b, o, h => by cases b <;> (obtain rfl := Option.some.inj h; rfl)
  | bool p, b, o, h => by
    cases b with
    | bool q =>
      obtain rfl := Option.some.inj h
      exact (beq_eq_compare ..).trans (Bool.and_true _).symm
    | null => obtain rfl := Option.some.inj h; rfl
    | _ => cases h
  | int m, b, o, h => by
    cases b with
    | int n =>
      obtain rfl := Option.some.inj h
      exact (beq_eq_compare ..).trans (Bool.and_true _).symm
    | float x => exact (Bool.and_false _).symm
    | null => obtain rfl := Option.some.inj h; rfl
    | _ => cases h
  | float x, b, o, h => by
    cases b with
    | float y => exact (beq_eq_compareFloat h).trans (Bool.and_true _).symm
    | int m => exact (Bool.and_false _).symm
    | null => obtain rfl := Option.some.inj h; rfl
    | _ => cases h
  | string s, b, o, h => by
    cases b with
    | string t =>
      obtain rfl := Option.some.inj h
      exact (beq_eq_compare ..).trans (Bool.and_true _).symm
    | null => obtain rfl := Option.some.inj h; rfl
    | _ => cases h
  | entity type attributes, b, o, h => by
    cases b with
    | null => obtain rfl := Option.some.inj h; rfl
    | _ => cases h
  | list as, b, o, h => by
    cases b with
    | list bs => exact sameItems_eq_of_compare as bs h
    | null => obtain rfl := Option.some.inj h; rfl
    | _ => cases h
  | tuple as, b, o, h => by
    cases b with
    | tuple bs => exact sameItems_eq_of_compare as bs h
    | null => obtain rfl := Option.some.inj h; rfl
    | _ => cases h

theorem sameItems_eq_of_compare : (as bs : List Value) → ∀ {o : Ordering},
    compareItems as bs = some o → sameItems as bs = (o == .eq && !mixedItems as bs)
  | [], [], _, h | [], _ :: _, _, h | _ :: _, [], _, h => by
    obtain rfl := Option.some.inj h
    rfl
  | a :: as, b :: bs, o, h => by
    rw [compareItems] at h
    rw [sameItems, mixedItems]
    cases first : compare a b with
    | none => rw [first] at h; cases h
    | some p =>
      rw [first] at h
      rw [same_eq_of_compare a b first]
      cases p with
      | lt | gt => obtain rfl := Option.some.inj h; rfl
      | eq =>
        rw [sameItems_eq_of_compare as bs h, Bool.not_or]
        cases mixed a b <;> simp

end

/-- Values that are ordered are equal when the order says so and mixes no numbers inside. -/
theorem equals_eq_of_compare {a b : Value} {o : Ordering} (h : compare a b = some o) :
    equals a b = (o == .eq && !mixedInside a b) := by
  have kinds := same_eq_of_compare a b h
  cases a with
  | int m =>
    cases b with
    | float x => exact (beq_eq_compareFloat h).trans (Bool.and_true _).symm
    | _ => exact kinds
  | float x =>
    cases b with
    | int m => exact (beq_eq_compareFloat h).trans (Bool.and_true _).symm
    | _ => exact kinds
  | _ => cases b <;> exact kinds

section Operators

variable {a b : Value} {o : Ordering} {op : BinaryOp}

theorem binary_of_compare (left : a.isNull = false) (right : b.isNull = false)
    (h : compare a b = some o) (order : op.isComparison) (other : op.isEquality = false) :
    binary op a b = .ok (bool (holds op o)) := by
  have answer : comparison op a b = .ok (bool (holds op o)) := by
    rw [comparison, left, right, h]
    rfl
  cases op with
  | lt | gt | le | ge => exact answer
  | eq | ne => cases other
  | _ => cases order

theorem binary_bool (left : a.isNull = false) (right : b.isNull = false)
    (h : compare a b = some o) (comparing : op.isComparison) :
    ∃ answer, binary op a b = .ok (bool answer) := by
  cases equality : op.isEquality with
  | false => exact ⟨_, binary_of_compare left right h comparing equality⟩
  | true =>
    cases op with
    | eq | ne => exact ⟨_, rfl⟩
    | _ => cases equality

theorem holds_eq_iff (h : compare a b = some o) :
    Holds .eq a b ↔ o = .eq ∧ mixedInside a b = false := by
  simp [Holds, binary, equals_eq_of_compare h]

theorem holds_ne_iff : Holds .ne a b ↔ ¬Holds .eq a b := by simp [Holds, binary]

theorem holds_iff (left : a.isNull = false) (right : b.isNull = false)
    (h : compare a b = some o) (order : op.isComparison) (other : op.isEquality = false) :
    Holds op a b ↔ holds op o := by
  rw [Holds, binary_of_compare left right h order other]
  simp

/-- What the order makes true. -/
theorem holds_order_iff (left : a.isNull = false) (right : b.isNull = false)
    (h : compare a b = some o) : (Holds .lt a b ↔ o = .lt) ∧ (Holds .gt a b ↔ o = .gt) ∧
      (Holds .le a b ↔ o ≠ .gt) ∧ (Holds .ge a b ↔ o ≠ .lt) := by
  rw [holds_iff left right h rfl rfl, holds_iff left right h rfl rfl,
    holds_iff left right h rfl rfl, holds_iff left right h rfl rfl]
  simp [holds]

theorem consistent_iff (left : a.isNull = false) (right : b.isNull = false)
    (h : compare a b = some o) : Consistent a b ↔ ¬(o = .eq ∧ mixedInside a b) := by
  obtain ⟨less, greater, atMost, atLeast⟩ := holds_order_iff left right h
  have equal := holds_eq_iff h
  constructor
  · rintro ⟨one, -, -, -⟩ ⟨same, blurred⟩
    rw [less, equal, greater, same, blurred] at one
    simp at one
  · intro apart
    have split : o = .eq → mixedInside a b = false := fun same =>
      Bool.eq_false_iff.2 fun blurred => apart ⟨same, blurred⟩
    refine ⟨?_, ?_, ?_, holds_ne_iff⟩
    · rw [less, equal, greater]
      cases o <;> simp_all
    · rw [less, equal, atMost]
      cases o <;> simp_all
    · rw [greater, equal, atLeast]
      cases o <;> simp_all

end Operators

/-- Of values that are ordered each comparison operator is true or false, and difference is the
negation of equality. All of them agree unless the order finds two sequences equal inside of which
an integer is opposite a float. -/
theorem comparisons_consistent_iff {a b : Value} (left : a.isNull = false)
    (right : b.isNull = false) (ordered : (compare a b).isSome) :
    (∀ op : BinaryOp, op.isComparison → ∃ answer, binary op a b = .ok (bool answer)) ∧
      (Holds .ne a b ↔ ¬Holds .eq a b) ∧
      (Consistent a b ↔ ¬(compare a b = some .eq ∧ mixedInside a b)) := by
  obtain ⟨o, h⟩ := Option.isSome_iff_exists.1 ordered
  refine ⟨fun op comparing => binary_bool left right h comparing, holds_ne_iff, ?_⟩
  rw [consistent_iff left right h, h, Option.some.injEq]

/-- `(1, [2.5, null])` and `(1.0, [3, true])`. -/
theorem comparisons_consistent_tuples :
    let a := tuple [int 1, list [float 2.5, null]]
    let b := tuple [float 1, list [int 3, bool true]]
    compare a b = some .lt ∧ mixedInside a b ∧ Consistent a b := by
  intro a b
  have less : compare a b = some .lt := by decide +kernel
  have ordered : (compare a b).isSome := by rw [less]; rfl
  have apart : ¬(compare a b = some .eq ∧ mixedInside a b) := by simp [less]
  exact ⟨less, rfl, (comparisons_consistent_iff rfl rfl ordered).2.2.2 apart⟩

/-- `(1)` is at most `(1.0)`, but neither less nor equal. -/
theorem not_consistent_singletons :
    compare (tuple [int 1]) (tuple [float 1]) = some .eq ∧
      ¬Consistent (tuple [int 1]) (tuple [float 1]) := by
  have same : compare (tuple [int 1]) (tuple [float 1]) = some .eq := by decide +kernel
  obtain ⟨less, -, atMost, -⟩ := holds_order_iff rfl rfl same
  have equal := holds_eq_iff same
  refine ⟨same, fun consistent => ?_⟩
  rcases consistent.le.1 (atMost.2 (by decide)) with first | alike
  · cases less.1 first
  · cases (equal.1 alike).2

end EntityQuery.Value
