import EntityQuery.Number.Shortest
import EntityQuery.Proofs.Number.Binary64
import Mathlib

/-! The shortest digits identify a float. They stand for a number that rounds to it, and no number
rounds to two floats. -/
namespace EntityQuery.Number

/-- The number that the digits stand for. -/
def Decimal.value (d : Decimal) : ℚ := d.coefficient * 10 ^ d.exponent

/-- Cutting a negative exponent off raises the power by as much. -/
theorem pow_toNat {a : ℚ} (nonzero : a ≠ 0) (z : ℤ) :
    a ^ z.toNat = a ^ z * a ^ (-z).toNat := by
  rw [← zpow_natCast, ← zpow_natCast, ← zpow_add₀ nonzero]
  congr 1
  omega

/-- A thousand is below the tenth power of two, and 28 digits reach above the 93rd. -/
theorem ten_zpow_le_two_zpow {k z : ℤ} (up : 10 * k ≤ 3 * z) (down : 93 * k ≤ 28 * z) :
    (10 : ℚ) ^ k ≤ 2 ^ z := by
  rcases le_total 0 k with positive | negative
  · refine le_of_pow_le_pow_left₀ three_ne_zero (by positivity) ?_
    calc ((10 : ℚ) ^ k) ^ 3 = (10 ^ 3) ^ k := by rw [← zpow_natCast, zpow_comm, zpow_natCast]
      _ ≤ (2 ^ 10) ^ k := zpow_le_zpow_left₀ positive (by positivity) (by norm_num)
      _ = 2 ^ (10 * k) := by rw [zpow_mul]; rfl
      _ ≤ 2 ^ (3 * z) := zpow_le_zpow_right₀ one_le_two up
      _ = (2 ^ z) ^ 3 := by rw [mul_comm, zpow_mul]; rfl
  · refine le_of_pow_le_pow_left₀ (by decide : 28 ≠ 0) (by positivity) ?_
    calc ((10 : ℚ) ^ k) ^ 28 = (10 ^ 28) ^ k := by rw [← zpow_natCast, zpow_comm, zpow_natCast]
      _ ≤ (2 ^ 93) ^ k := by
        rw [← neg_neg k, zpow_neg _ (-k), zpow_neg _ (-k)]
        have wider : ((2 : ℚ) ^ 93) ^ (-k) ≤ (10 ^ 28) ^ (-k) :=
          zpow_le_zpow_left₀ (neg_nonneg.2 negative) (by positivity) (by norm_num)
        exact inv_anti₀ (by positivity) wider
      _ = 2 ^ (93 * k) := by rw [zpow_mul]; rfl
      _ ≤ 2 ^ (28 * z) := zpow_le_zpow_right₀ one_le_two down
      _ = (2 ^ z) ^ 28 := by rw [mul_comm, zpow_mul]; rfl

namespace RoundingInterval

variable {i : RoundingInterval} {k : ℤ}

/-- The number lies in the interval. -/
def Holds (i : RoundingInterval) (x : ℚ) : Prop :=
  if i.closed then i.low * 2 ^ i.exponent ≤ x ∧ x ≤ i.high * 2 ^ i.exponent
  else i.low * 2 ^ i.exponent < x ∧ x < i.high * 2 ^ i.exponent

theorem Holds.le {x : ℚ} (h : i.Holds x) :
    i.low * 2 ^ i.exponent ≤ x ∧ x ≤ i.high * 2 ^ i.exponent := by
  unfold Holds at h
  split at h
  · exact h
  · exact ⟨h.1.le, h.2.le⟩

theorem Holds.lt {x : ℚ} (h : i.Holds x) (opened : i.closed = false) :
    i.low * 2 ^ i.exponent < x ∧ x < i.high * 2 ^ i.exponent := by
  rwa [Holds, opened] at h

variable (i k)

/-- The scales are the two powers, up to one factor. -/
theorem scales_eq : ∃ u : ℚ, 0 < u ∧ ((i.scales k).1 : ℚ) = 2 ^ i.exponent * u ∧
    ((i.scales k).2 : ℚ) = 10 ^ k * u := by
  refine ⟨2 ^ (-i.exponent).toNat * 10 ^ (-k).toNat, by positivity, ?_, ?_⟩
  · have := pow_toNat two_ne_zero i.exponent
    simp only [scales, Nat.pow_eq, Nat.cast_mul, Nat.cast_pow, Nat.cast_ofNat, this]
    ring
  · have := pow_toNat (a := 10) (by norm_num) k
    simp only [scales, Nat.pow_eq, Nat.cast_mul, Nat.cast_pow, Nat.cast_ofNat, this]
    ring

theorem contains_iff (c : Nat) : i.contains k c ↔ i.Holds (c * 10 ^ k) := by
  obtain ⟨u, positive, first, second⟩ := i.scales_eq k
  have bound (a : Nat) : ((a * (i.scales k).1 : Nat) : ℚ) = a * 2 ^ i.exponent * u := by
    rw [Nat.cast_mul, first, mul_assoc]
  have multiple (b : Nat) : ((b * (i.scales k).2 : Nat) : ℚ) = b * 10 ^ k * u := by
    rw [Nat.cast_mul, second, mul_assoc]
  have le (a b : Nat) : a * (i.scales k).1 ≤ b * (i.scales k).2 ↔
      (a * 2 ^ i.exponent : ℚ) ≤ b * 10 ^ k := by
    rw [← Nat.cast_le (α := ℚ), bound, multiple, mul_le_mul_iff_left₀ positive]
  have ge (a b : Nat) : b * (i.scales k).2 ≤ a * (i.scales k).1 ↔
      (b * 10 ^ k : ℚ) ≤ a * 2 ^ i.exponent := by
    rw [← Nat.cast_le (α := ℚ), bound, multiple, mul_le_mul_iff_left₀ positive]
  unfold contains Holds
  dsimp only
  split
  · rw [Bool.and_eq_true, decide_eq_true_eq, decide_eq_true_eq, le, ge]
  · rw [Bool.and_eq_true, decide_eq_true_eq, decide_eq_true_eq, ← not_le, ← not_le, le, ge, not_le,
      not_le]

variable {i k}

theorem holds_of_nearest? {tie : Tie} {d : Decimal} (h : i.nearest? tie k = some d) :
    i.Holds d.value := by
  have taken {c : Nat} (inside : i.contains k c = true) : i.Holds (Decimal.mk c k).value :=
    (i.contains_iff k c).1 inside
  unfold nearest? at h
  dsimp only at h
  split at h
  · cases h
  · next below _ =>
    cases h
    exact taken below
  · next _ above =>
    cases h
    exact taken above
  · next below above =>
    split at h
    · cases h
      exact taken below
    split at h
    · cases h
      exact taken above
    cases tie with
    | up =>
      cases h
      exact taken above
    | toEven =>
      cases h
      split
      · exact taken below
      · exact taken above

/-- Where the multiples of a power of ten are at most half the interval apart, one of them lies in
it. -/
theorem nearest?_ne_none (tie : Tie) (width : i.high = i.value + 2) (inside : i.low < i.value)
    (fine : (10 : ℚ) ^ k ≤ 2 ^ i.exponent) : i.nearest? tie k ≠ none := by
  obtain ⟨u, positive, first, second⟩ := i.scales_eq k
  have scale : 0 < (i.scales k).1 := by
    rw [← Nat.cast_pos (α := ℚ), first]
    positivity
  have step : 0 < (i.scales k).2 := by
    rw [← Nat.cast_pos (α := ℚ), second]
    positivity
  have narrow : (i.scales k).2 ≤ (i.scales k).1 := by
    rw [← Nat.cast_le (α := ℚ), first, second]
    exact mul_le_mul_of_nonneg_right fine positive.le
  have above : i.contains k (i.value * (i.scales k).1 / (i.scales k).2 + 1) = true := by
    have divided := Nat.div_add_mod (i.value * (i.scales k).1) (i.scales k).2
    have left := Nat.mod_lt (i.value * (i.scales k).1) step
    have lower : i.low * (i.scales k).1 < i.value * (i.scales k).1 :=
      Nat.mul_lt_mul_of_pos_right inside scale
    unfold contains
    dsimp only
    rw [width, add_mul, add_mul, mul_comm (_ / _)]
    split
    · rw [Bool.and_eq_true, decide_eq_true_eq, decide_eq_true_eq]
      omega
    · rw [Bool.and_eq_true, decide_eq_true_eq, decide_eq_true_eq]
      omega
  unfold nearest?
  dsimp only
  rw [above]
  cases i.contains k (i.value * (i.scales k).1 / (i.scales k).2) with
  | false => simp
  | true =>
    dsimp only
    split
    · simp
    split
    · simp
    cases tie <;> simp

end RoundingInterval

open RoundingInterval Binary64

variable {m n : Nat} {e f : Int}

/-- Some power of ten among those tried has a multiple that rounds to the float. -/
theorem holds_shortest (tie : Tie) (h : Canonical m e) (positive : 0 < m) :
    (RoundingInterval.of m e).Holds (shortest tie m e).value := by
  have some : ∃ d, (List.range 24).findSome? (fun (step : Nat) =>
      (RoundingInterval.of m e).nearest? tie (topExponent m e - step)) = some d := by
    rw [← Option.ne_none_iff_exists', Ne, List.findSome?_eq_none_iff]
    intro none
    refine nearest?_ne_none tie rfl ?_ ?_ (none 23 (by decide))
    · simp only [RoundingInterval.of]
      split <;> omega
    · have full : m.log2 < 53 := (Nat.log2_lt (by omega)).2 h.bound
      have least := h.least
      have most := h.most
      refine ten_zpow_le_two_zpow ?_ ?_
      · simp only [topExponent, RoundingInterval.of]
        omega
      · simp only [topExponent, RoundingInterval.of]
        omega
  obtain ⟨d, found⟩ := some
  obtain ⟨step, -, taken⟩ := List.exists_of_findSome?_eq_some found
  simp only [shortest, found, Option.getD_some]
  exact holds_of_nearest? taken

/-- One float is below another. -/
def Below (m : Nat) (e : Int) (n : Nat) (f : Int) : Prop := e < f ∨ e = f ∧ m < n

/-- In units of the lower float's last place: its interval ends where the greater one's begins, or
before it, and they share no end that belongs to both. -/
theorem high_le_low_mul {gap : Nat} (h : Canonical m e) (h' : Canonical n (e + gap))
    (below : Below m e n (e + gap)) :
    let i := RoundingInterval.of m e
    let j := RoundingInterval.of n (e + gap)
    i.high ≤ j.low * 2 ^ gap ∧
      (i.high = j.low * 2 ^ gap → i.closed = false ∨ j.closed = false) := by
  have bound := h.bound
  have full := h'.full
  have least := h.least
  have value : hiddenBit = 4503599627370496 := rfl
  simp only [RoundingInterval.of, decide_eq_false_iff_not]
  rcases gap with _ | gap
  · have := h.full
    unfold Below at below
    split
    · omega
    · omega
  · have double : 2 * 1 ≤ 2 ^ (gap + 1) := by
      rw [Nat.pow_succ']
      exact Nat.mul_le_mul_left 2 Nat.one_le_two_pow
    split
    · next power =>
      have wide : (4 * hiddenBit - 1) * 2 ≤ (4 * n - 1) * 2 ^ (gap + 1) :=
        Nat.mul_le_mul (by omega) double
      omega
    · next regular =>
      have wide : (4 * (hiddenBit + 1) - 2) * 2 ≤ (4 * n - 2) * 2 ^ (gap + 1) :=
        Nat.mul_le_mul (by omega) double
      omega

theorem high_le_low (h : Canonical m e) (h' : Canonical n f) (below : Below m e n f) :
    let i := RoundingInterval.of m e
    let j := RoundingInterval.of n f
    (i.high * 2 ^ i.exponent : ℚ) ≤ j.low * 2 ^ j.exponent ∧
    ((i.high * 2 ^ i.exponent : ℚ) = j.low * 2 ^ j.exponent →
      i.closed = false ∨ j.closed = false) := by
  intro i j
  obtain ⟨gap, rfl⟩ := Int.le.dest (show e ≤ f by unfold Below at below; omega)
  have scaled : (j.low * 2 ^ j.exponent : ℚ) = (j.low * 2 ^ gap : Nat) * 2 ^ i.exponent := by
    simp only [i, j, RoundingInterval.of]
    rw [show e + gap - 2 = gap + (e - 2) by ring, zpow_add₀ two_ne_zero]
    push_cast
    rw [zpow_natCast, mul_assoc]
  have positive : (0 : ℚ) < 2 ^ i.exponent := by positivity
  rw [scaled, mul_le_mul_iff_left₀ positive, mul_left_inj' positive.ne', Nat.cast_le, Nat.cast_inj]
  exact high_le_low_mul h h' below

/-- No number rounds to two floats. -/
theorem not_holds_of_below (h : Canonical m e) (h' : Canonical n f) (below : Below m e n f) {x : ℚ}
    (first : (RoundingInterval.of m e).Holds x) : ¬(RoundingInterval.of n f).Holds x := by
  intro second
  obtain ⟨order, shared⟩ := high_le_low h h' below
  have meet := le_antisymm order (second.le.1.trans first.le.2)
  rcases shared meet with opened | opened
  · exact absurd (first.lt opened).2 (not_lt.2 (order.trans second.le.1))
  · exact absurd (second.lt opened).1 (not_lt.2 (first.le.2.trans order))

theorem eq_of_holds (h : Canonical m e) (h' : Canonical n f) {x : ℚ}
    (first : (RoundingInterval.of m e).Holds x) (second : (RoundingInterval.of n f).Holds x) :
    m = n ∧ e = f := by
  by_contra different
  have either : Below m e n f ∨ Below n f m e := by
    unfold Below
    omega
  rcases either with below | above
  · exact not_holds_of_below h h' below first second
  · exact not_holds_of_below h' h above second first

theorem value_shortest_pos (tie : Tie) (h : Canonical m e) (positive : 0 < m) :
    0 < (shortest tie m e).value := by
  have low : 0 < (RoundingInterval.of m e).low := by
    simp only [RoundingInterval.of]
    split <;> omega
  refine lt_of_lt_of_le ?_ (holds_shortest tie h positive).le.1
  have := Nat.cast_pos (α := ℚ).2 low
  positivity

/-- The shortest digits tell which float it is. -/
theorem eq_of_value_shortest (tie : Tie) (h : Canonical m e) (h' : Canonical n f)
    (positive : 0 < m) (positive' : 0 < n)
    (same : (shortest tie m e).value = (shortest tie n f).value) : m = n ∧ e = f :=
  eq_of_holds h h' (holds_shortest tie h positive) (same ▸ holds_shortest tie h' positive')

end EntityQuery.Number
