import EntityQuery.Proofs.Value.Equality
import EntityQuery.Proofs.Value.Key

/-! Equality and texts side by side. Without NaNs, values are equal if they are the same but for the
signs of zeros, and share a text if they are the same but for the signs of infinities. -/
namespace EntityQuery

namespace Number

def isZero (x : Float) : Bool := x = 0 || x = -0

def isInfinite (x : Float) : Bool := x = 1 / 0 || x = -1 / 0

/-- Whether floats are the same, or both are of a kind of which there are two, a positive one and a
negative one. -/
def sameUpToSign (kind : Float → Bool) (x y : Float) : Bool := x = y || (kind x && kind y)

theorem beq_eq_sameUpToSign {x y : Float} (number : x ≠ Float.nan) (number' : y ≠ Float.nan) :
    (x == y) = sameUpToSign isZero x y := by
  rw [Bool.eq_iff_iff, Float.beq_iff_ne_nan_and_eq]
  simp only [sameUpToSign, isZero, Bool.or_eq_true, Bool.and_eq_true, decide_eq_true_eq]
  constructor
  · rintro ⟨-, -, same | ⟨rfl, rfl⟩ | ⟨rfl, rfl⟩⟩
    · exact .inl same
    · exact .inr ⟨.inl rfl, .inr rfl⟩
    · exact .inr ⟨.inr rfl, .inl rfl⟩
  · rintro (rfl | ⟨rfl | rfl, rfl | rfl⟩)
    all_goals simp_all

/-- No zero is infinite. -/
theorem eq_of_sameUpToSign {x y : Float} (one : sameUpToSign isInfinite x y)
    (two : sameUpToSign isZero x y) : x = y := by
  simp only [sameUpToSign, Bool.or_eq_true, Bool.and_eq_true, decide_eq_true_eq] at one two
  rcases one with same | ⟨infinite, -⟩
  · exact same
  rcases two with same | ⟨zero, -⟩
  · exact same
  simp only [isInfinite, isZero, Bool.or_eq_true, decide_eq_true_eq] at infinite zero
  have apart : (0 : Float) ≠ 1 / 0 ∧ (0 : Float) ≠ -1 / 0 ∧ (-0 : Float) ≠ 1 / 0 ∧
      (-0 : Float) ≠ -1 / 0 := by decide +kernel
  rcases zero with rfl | rfl
  · exact (infinite.elim apart.1 apart.2.1).elim
  · exact (infinite.elim apart.2.2.1 apart.2.2.2).elim

/-- What is neither finite nor a NaN is one of two infinities. -/
theorem isFinite_eq_not_isInfinite {x : Float} (number : x ≠ Float.nan) :
    isFinite x = !isInfinite x := by
  have positive : Binary64.ofFloat (1 / 0) = .infinite false := by decide +kernel
  have negative : Binary64.ofFloat (-1 / 0) = .infinite true := by decide +kernel
  cases taken : Binary64.ofFloat x with
  | nan => exact absurd (Binary64.eq_nan_of_ofFloat taken) number
  | infinite sign =>
    have infinite : x = 1 / 0 ∨ x = -1 / 0 := by
      cases sign with
      | false => exact .inl (Binary64.ofFloat_injective (taken.trans positive.symm))
      | true => exact .inr (Binary64.ofFloat_injective (taken.trans negative.symm))
    have found : isInfinite x = true := by simpa [isInfinite] using infinite
    rw [found, isFinite, taken]
    rfl
  | finite sign mantissa exponent =>
    have apart {y : Float} {sign' : Bool} (h : Binary64.ofFloat y = .infinite sign') : x ≠ y := by
      rintro rfl
      cases taken.symm.trans h
    have found : isInfinite x = false := by simp [isInfinite, apart positive, apart negative]
    rw [found, isFinite, taken]
    rfl

end Number

namespace Value

open Number

theorem writtenAlike_eq_sameUpToSign {x y : Float} (number : x ≠ Float.nan)
    (number' : y ≠ Float.nan) : writtenAlike x y = sameUpToSign isInfinite x y := by
  rw [writtenAlike, sameUpToSign, isFinite_eq_not_isInfinite number,
    isFinite_eq_not_isInfinite number', Bool.not_not, Bool.not_not]

mutual

theorem same_eq_sameBy : (v w : Value) → v.same w = v.sameBy (· == ·) w
  | null, w | bool _, w | int _, w | float _, w | string _, w => by cases w <;> rfl
  | entity _ a, w => by
    cases w with
    | entity _ b => rw [same, sameBy, sameEntries_eq_sameBy a b]
    | _ => rfl
  | list a, w => by
    cases w with
    | list b => exact sameItems_eq_sameBy a b
    | _ => rfl
  | tuple a, w => by
    cases w with
    | tuple b => exact sameItems_eq_sameBy a b
    | _ => rfl

theorem sameItems_eq_sameBy : (a b : List Value) → sameItems a b = sameItemsBy (· == ·) a b
  | [], [] | [], _ :: _ | _ :: _, [] => rfl
  | v :: a, w :: b => by rw [sameItems, sameItemsBy, same_eq_sameBy v w, sameItems_eq_sameBy a b]

theorem sameEntries_eq_sameBy : (a b : List (String × Value)) →
    sameEntries a b = sameEntriesBy (· == ·) a b
  | [], [] | [], _ :: _ | _ :: _, [] => rfl
  | (_, v) :: a, (_, w) :: b => by
    rw [sameEntries, sameEntriesBy, same_eq_sameBy v w, sameEntries_eq_sameBy a b]

end

variable {r s : Float → Float → Bool}

mutual

/-- Without NaNs only how other floats are related matters. -/
theorem sameBy_congr (h : ∀ {x y : Float}, x ≠ Float.nan → y ≠ Float.nan → r x y = s x y) :
    (v w : Value) → v.nanFree → w.nanFree → v.sameBy r w = v.sameBy s w
  | null, w, _, _ | bool _, w, _, _ | int _, w, _, _ | string _, w, _, _ => by cases w <;> rfl
  | float _, w, free, free' => by
    cases w with
    | float _ => exact h free free'
    | _ => rfl
  | entity _ a, w, free, free' => by
    cases w with
    | entity _ b => rw [sameBy, sameBy, sameEntriesBy_congr h a b free free']
    | _ => rfl
  | list a, w, free, free' => by
    cases w with
    | list b => exact sameItemsBy_congr h a b free free'
    | _ => rfl
  | tuple a, w, free, free' => by
    cases w with
    | tuple b => exact sameItemsBy_congr h a b free free'
    | _ => rfl

theorem sameItemsBy_congr
    (h : ∀ {x y : Float}, x ≠ Float.nan → y ≠ Float.nan → r x y = s x y) :
    (a b : List Value) → nanFreeItems a → nanFreeItems b → sameItemsBy r a b = sameItemsBy s a b
  | [], [], _, _ | [], _ :: _, _, _ | _ :: _, [], _, _ => rfl
  | v :: a, w :: b, free, free' => by
    rw [sameItemsBy, sameItemsBy, sameBy_congr h v w free.1 free'.1,
      sameItemsBy_congr h a b free.2 free'.2]

theorem sameEntriesBy_congr
    (h : ∀ {x y : Float}, x ≠ Float.nan → y ≠ Float.nan → r x y = s x y) :
    (a b : List (String × Value)) → nanFreeEntries a → nanFreeEntries b →
      sameEntriesBy r a b = sameEntriesBy s a b
  | [], [], _, _ | [], _ :: _, _, _ | _ :: _, [], _, _ => rfl
  | (_, v) :: a, (_, w) :: b, free, free' => by
    rw [sameEntriesBy, sameEntriesBy, sameBy_congr h v w free.1 free'.1,
      sameEntriesBy_congr h a b free.2 free'.2]

end

mutual

/-- Values that two relations leave the same are the same where no two floats are in both. -/
theorem eq_of_sameBy (h : ∀ {x y : Float}, r x y → s x y → x = y) :
    (v w : Value) → v.sameBy r w → v.sameBy s w → v = w
  | null, w, one, _ => by cases w <;> first | rfl | cases one
  | bool _, w, one, _ => by cases w <;> first | rw [eq_of_beq one] | cases one
  | int _, w, one, _ => by cases w <;> first | rw [eq_of_beq one] | cases one
  | string _, w, one, _ => by cases w <;> first | rw [eq_of_beq one] | cases one
  | float _, w, one, two => by cases w <;> first | rw [h one two] | cases one
  | entity _ a, w, one, two => by
    cases w with
    | entity _ b =>
      simp only [sameBy, Bool.and_eq_true, beq_iff_eq] at one two
      rw [one.1, eq_of_sameEntriesBy h a b one.2 two.2]
    | _ => cases one
  | list a, w, one, two => by
    cases w with
    | list b => rw [eq_of_sameItemsBy h a b one two]
    | _ => cases one
  | tuple a, w, one, two => by
    cases w with
    | tuple b => rw [eq_of_sameItemsBy h a b one two]
    | _ => cases one

theorem eq_of_sameItemsBy (h : ∀ {x y : Float}, r x y → s x y → x = y) :
    (a b : List Value) → sameItemsBy r a b → sameItemsBy s a b → a = b
  | [], [], _, _ => rfl
  | [], _ :: _, one, _ | _ :: _, [], one, _ => by cases one
  | v :: a, w :: b, one, two => by
    simp only [sameItemsBy, Bool.and_eq_true] at one two
    rw [eq_of_sameBy h v w one.1 two.1, eq_of_sameItemsBy h a b one.2 two.2]

theorem eq_of_sameEntriesBy (h : ∀ {x y : Float}, r x y → s x y → x = y) :
    (a b : List (String × Value)) → sameEntriesBy r a b → sameEntriesBy s a b → a = b
  | [], [], _, _ => rfl
  | [], _ :: _, one, _ | _ :: _, [], one, _ => by cases one
  | (_, v) :: a, (_, w) :: b, one, two => by
    simp only [sameEntriesBy, Bool.and_eq_true, beq_iff_eq] at one two
    rw [one.1.1, eq_of_sameBy h v w one.1.2 two.1.2, eq_of_sameEntriesBy h a b one.2 two.2]

end

variable {v w : Value}

/-- Values are equal if they are the same but for the signs of zeros. -/
theorem beq_iff_sameBy (free : v.nanFree) (free' : w.nanFree) :
    v == w ↔ v.sameBy (sameUpToSign isZero) w := by
  rw [← sameBy_congr beq_eq_sameUpToSign v w free free', ← same_eq_sameBy]
  rfl

/-- Values share a text if they are the same but for the signs of infinities. -/
theorem key_eq_iff_sameBy [Libraries] [Libraries.JsonNumerals] (free : v.nanFree)
    (free' : w.nanFree) : v.key = w.key ↔ v.sameBy (sameUpToSign isInfinite) w := by
  rw [← sameBy_congr writtenAlike_eq_sameUpToSign v w free free']
  exact key_eq_iff

/-- Equal values share a text and the others do not, unless the two differ in nothing but the signs
of infinities, or in nothing but the signs of zeros. -/
theorem key_eq_iff_beq_iff [Libraries] [Libraries.JsonNumerals] (free : v.nanFree)
    (free' : w.nanFree) : (v.key = w.key ↔ v == w) ↔ ¬(v ≠ w ∧
      (v.sameBy (sameUpToSign isInfinite) w ∨ v.sameBy (sameUpToSign isZero) w)) := by
  rw [beq_iff_sameBy free free', key_eq_iff_sameBy free free']
  constructor
  · rintro agree ⟨apart, either⟩
    have both : v.sameBy (sameUpToSign isInfinite) w ∧ v.sameBy (sameUpToSign isZero) w :=
      either.elim (fun one => ⟨one, agree.1 one⟩) fun one => ⟨agree.2 one, one⟩
    exact apart (eq_of_sameBy eq_of_sameUpToSign v w both.1 both.2)
  · intro none
    have same (either : v.sameBy (sameUpToSign isInfinite) w ∨ v.sameBy (sameUpToSign isZero) w) :
        v = w := by
      by_contra apart
      exact none ⟨apart, either⟩
    constructor
    · intro one
      obtain rfl := same (.inl one)
      exact (beq_iff_sameBy free free').1 (beq_self free)
    · intro one
      obtain rfl := same (.inr one)
      exact (key_eq_iff_sameBy free free').1 rfl

end Value
end EntityQuery
