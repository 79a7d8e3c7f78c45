import EntityQuery.Proofs.Number.Binary64
import EntityQuery.Value.Order
import Mathlib

/-! The order of floats. Each float but the NaN has a place on the number line, by its sign, its
exponent and its mantissa, and floats are compared as their places are. -/
namespace EntityQuery.Number

open Float.Model

/-- The place of a float on the number line, by sign, exponent and mantissa. A NaN has none. -/
def place : UnpackedFloat → Option (ℤ ×ₗ ℤ ×ₗ ℤ)
  | .notANumber => none
  | .infinity .negative => some (toLex (-2, toLex (0, 0)))
  | .finite .negative m e _ => some (toLex (-1, toLex (-e, -m)))
  | .zero _ => some (toLex (0, toLex (0, 0)))
  | .finite .positive m e _ => some (toLex (1, toLex (e, m)))
  | .infinity .positive => some (toLex (2, toLex (0, 0)))

theorem compare_toLex (a b c a' b' c' : ℤ) :
    compare (toLex (a, toLex (b, c))) (toLex (a', toLex (b', c'))) =
      (compare a a').then ((compare b b').then (compare c c')) := by
  simp only [Prod.Lex.compare_def, compareLex, compareOn, ofLex_toLex]

theorem compare_neg_neg (a b : ℤ) : compare (-a) (-b) = (compare a b).swap := by
  rw [← Std.OrientedOrd.eq_swap]
  rcases lt_trichotomy a b with h | rfl | h
  · rw [compare_gt_iff_gt.2 h, compare_gt_iff_gt.2 (neg_lt_neg h)]
  · rw [compare_eq_iff_eq.2 rfl, compare_eq_iff_eq.2 rfl]
  · rw [compare_lt_iff_lt.2 h, compare_lt_iff_lt.2 (neg_lt_neg h)]

theorem compare_natCast (m n : ℕ) : compare (m : ℤ) n = compare m n := by
  rcases lt_trichotomy m n with h | rfl | h
  · rw [compare_lt_iff_lt.2 h, compare_lt_iff_lt.2 (Int.ofNat_lt.2 h)]
  · rw [compare_eq_iff_eq.2 rfl, compare_eq_iff_eq.2 rfl]
  · rw [compare_gt_iff_gt.2 h, compare_gt_iff_gt.2 (Int.ofNat_lt.2 h)]

/-- Floats are compared as their places are. -/
theorem compare_eq_place (x y : UnpackedFloat) :
    x.compare y = (place x).bind fun p => (place y).map (compare p) := by
  cases x with
  | notANumber => rfl
  | infinity s =>
    cases y with
    | notANumber => cases s <;> rfl
    | infinity t => cases s <;> cases t <;> rfl
    | zero t => cases s <;> rfl
    | finite t n f => cases s <;> cases t <;> rfl
  | zero s =>
    cases y with
    | notANumber => rfl
    | infinity t => cases t <;> rfl
    | zero t => rfl
    | finite t n f => cases t <;> rfl
  | finite s m e =>
    cases y with
    | notANumber => cases s <;> rfl
    | infinity t => cases s <;> cases t <;> rfl
    | zero t => cases s <;> rfl
    | finite t n f =>
      cases s with
      | negative =>
        cases t with
        | negative =>
          simp only [UnpackedFloat.compare, place, Option.bind_some, Option.map_some, compare_toLex,
            compare_neg_neg, compare_natCast, Ordering.swap_then]
          rfl
        | positive => rfl
      | positive =>
        cases t with
        | negative => rfl
        | positive =>
          simp only [UnpackedFloat.compare, place, Option.bind_some, Option.map_some, compare_toLex,
            compare_natCast]
          rfl

/-- The place of a float on the number line. -/
def floatPlace (x : Float) : Option (ℤ ×ₗ ℤ ×ₗ ℤ) := place x.toModel.unpack

theorem lt_iff_compare (x y : Float) :
    x < y ↔ x.toModel.unpack.compare y.toModel.unpack = some .lt := by
  change decide (x.toModel < y.toModel) = true ↔ _
  rw [decide_eq_true_eq]
  change UnpackedFloat.lt _ _ = true ↔ _
  rw [UnpackedFloat.lt, beq_iff_eq]

theorem beq_iff_compare (x y : Float) :
    x == y ↔ x.toModel.unpack.compare y.toModel.unpack = some .eq := by
  change UnpackedFloat.beq _ _ = true ↔ _
  rw [UnpackedFloat.beq, beq_iff_eq]

/-- Floats that have places are in the order of these. -/
theorem compareFloat_eq (x y : Float) :
    Value.compareFloat x y = (floatPlace x).bind fun p => (floatPlace y).map (compare p) := by
  unfold Value.compareFloat floatPlace
  simp only [lt_iff_compare, beq_iff_compare, compare_eq_place]
  cases place x.toModel.unpack with
  | none => cases place y.toModel.unpack <;> rfl
  | some p =>
    cases place y.toModel.unpack with
    | none => rfl
    | some q =>
      simp only [Option.bind_some, Option.map_some, Option.some.injEq, compare_lt_iff_lt,
        compare_eq_iff_eq]
      rcases lt_trichotomy p q with less | rfl | greater
      · rw [if_pos less, compare_lt_iff_lt.2 less]
      · rw [if_neg (lt_irrefl p), if_pos rfl, compare_eq_iff_eq.2 rfl]
      · rw [if_neg greater.asymm, if_neg greater.ne', if_pos greater, compare_gt_iff_gt.2 greater]

variable {x y z : Float} {o o' : Ordering}

theorem compareFloat_swap (x y : Float) :
    Value.compareFloat y x = (Value.compareFloat x y).map Ordering.swap := by
  rw [compareFloat_eq, compareFloat_eq]
  cases floatPlace x with
  | none => cases floatPlace y <;> rfl
  | some p =>
    cases floatPlace y with
    | none => rfl
    | some q => exact congrArg some Std.OrientedOrd.eq_swap

theorem compareFloat_eq_iff : Value.compareFloat x y = some .eq ↔ x == y := by
  rw [beq_iff_compare, compare_eq_place, compareFloat_eq]
  rfl

/-- What is decided between three that do not descend is decided by the first that are not equal. -/
theorem compare_then {α : Type*} [Ord α] [Std.TransOrd α] {a b c : α}
    (hab : (compare a b).isLE) (hbc : (compare b c).isLE) :
    compare a c = (compare a b).then (compare b c) := by
  cases first : compare a b with
  | gt => rw [first] at hab; cases hab
  | eq => exact Std.TransCmp.congr_left first
  | lt => exact Std.TransCmp.lt_of_lt_of_isLE first hbc

theorem compareFloat_then (hxy : Value.compareFloat x y = some o) (le : o.isLE)
    (hyz : Value.compareFloat y z = some o') (le' : o'.isLE) :
    Value.compareFloat x z = some (o.then o') := by
  rw [compareFloat_eq] at *
  cases hp : floatPlace x with
  | none => simp [hp] at hxy
  | some p =>
    cases hq : floatPlace y with
    | none => simp [hq] at hyz
    | some q =>
      cases hr : floatPlace z with
      | none => simp [hq, hr] at hyz
      | some r =>
        simp only [hp, hq, hr, Option.bind_some, Option.map_some, Option.some.injEq] at hxy hyz ⊢
        subst hxy hyz
        exact compare_then le le'

end EntityQuery.Number
