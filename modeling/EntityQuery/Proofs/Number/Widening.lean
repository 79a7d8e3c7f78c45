import EntityQuery.Proofs.Number.Comparison

/-! Integers as floats. The float nearest to an integer has a mantissa of 53 bits, rounded and, when
that carries, shifted once more. It never descends from one integer to a greater one, but beyond 53
bits different integers share floats. -/
namespace EntityQuery.Number

open Float.Model UnpackedFloat

/-! ### Rounding -/

/-- A mantissa with its two rounding bits, as one number. -/
def graded (m : ExtendedMantissa) : ℕ := 4 * m.mantissa + 2 * m.roundBit.toNat + m.stickyBit.toNat

theorem graded_shiftRightOne (m : ExtendedMantissa) :
    graded m.shiftRightOne = 2 * (graded m / 4) + min 1 (graded m % 4) := by
  obtain ⟨a, r, s⟩ := m
  rcases Nat.mod_two_eq_zero_or_one a with even | odd
  · cases r <;> cases s <;> simp [graded, ExtendedMantissa.shiftRightOne, even] <;> omega
  · cases r <;> cases s <;> simp [graded, ExtendedMantissa.shiftRightOne, odd] <;> omega

theorem roundedMantissa_eq (m : ExtendedMantissa) : m.roundedMantissa =
    graded m / 4 + if graded m % 4 = 2 then graded m / 4 % 2 else graded m % 4 / 3 := by
  obtain ⟨a, r, s⟩ := m
  have ratio (k : ℕ) (below : k < 4) : (4 * a + k) / 4 = a ∧ (4 * a + k) % 4 = k := by omega
  cases r <;> cases s <;> simp [graded, ExtendedMantissa.roundedMantissa,
    ExtendedMantissa.accuracy, Accuracy.roundToNearestEven, add_assoc, ratio]

theorem graded_shift_mono {m n : ExtendedMantissa} (k : ℕ) (h : graded m ≤ graded n) :
    graded (m >>> k) ≤ graded (n >>> k) := by
  induction k with
  | zero => exact h
  | succ k ih =>
    change graded (m >>> k).shiftRightOne ≤ graded (n >>> k).shiftRightOne
    rw [graded_shiftRightOne, graded_shiftRightOne]
    omega

/-- A number without its last `k` bits, rounded to the nearest, and between two to the even one. -/
def rounded (k n : ℕ) : ℕ :=
  (ExtendedMantissa.ofMantissaAndAccuracy n .exact >>> k).roundedMantissa

theorem rounded_mono (k : ℕ) {m n : ℕ} (h : m ≤ n) : rounded k m ≤ rounded k n := by
  have graded := graded_shift_mono (m := .ofMantissaAndAccuracy m .exact)
    (n := .ofMantissaAndAccuracy n .exact) k
    (by simp [graded, ExtendedMantissa.ofMantissaAndAccuracy, h])
  rw [rounded, rounded, roundedMantissa_eq, roundedMantissa_eq]
  split <;> split <;> omega

theorem shift_multiple (m k : ℕ) :
    ExtendedMantissa.ofMantissaAndAccuracy (m * 2 ^ k) .exact >>> k =
      ExtendedMantissa.ofMantissaAndAccuracy m .exact := by
  induction k generalizing m with
  | zero =>
    rw [pow_zero, mul_one]
    rfl
  | succ k ih =>
    change (ExtendedMantissa.ofMantissaAndAccuracy _ .exact >>> k).shiftRightOne = _
    rw [pow_succ', ← mul_assoc, ih]
    simp [ExtendedMantissa.shiftRightOne, ExtendedMantissa.ofMantissaAndAccuracy]

/-- Nothing is rounded of a multiple. -/
theorem rounded_multiple (k m : ℕ) : rounded k (m * 2 ^ k) = m := by
  rw [rounded, shift_multiple]
  rfl

/-- A number in units of the last of 53 bits, rounded. -/
def significand (n : ℕ) : ℕ := rounded (n.log2 - 52) (n * 2 ^ (52 - n.log2))

theorem significand_mono {m n : ℕ} (same : m.log2 = n.log2) (h : m ≤ n) :
    significand m ≤ significand n := by
  unfold significand
  rw [same]
  exact rounded_mono _ (Nat.mul_le_mul_right _ h)

theorem significand_bounds {n : ℕ} (h : n ≠ 0) :
    2 ^ 52 ≤ significand n ∧ significand n ≤ 2 ^ 53 := by
  have low : 2 ^ n.log2 * 2 ^ (52 - n.log2) ≤ n * 2 ^ (52 - n.log2) :=
    Nat.mul_le_mul_right _ (Nat.log2_self_le h)
  have high : n * 2 ^ (52 - n.log2) ≤ 2 ^ (n.log2 + 1) * 2 ^ (52 - n.log2) :=
    Nat.mul_le_mul_right _ Nat.lt_log2_self.le
  have scale : 2 ^ n.log2 * 2 ^ (52 - n.log2) = 2 ^ 52 * 2 ^ (n.log2 - 52) := by
    rw [← pow_add, ← pow_add]
    congr 1
    omega
  rw [scale] at low
  rw [pow_succ', mul_assoc, scale, ← mul_assoc] at high
  constructor
  · have least := rounded_mono (n.log2 - 52) low
    rwa [rounded_multiple] at least
  · have most := rounded_mono (n.log2 - 52) high
    rwa [rounded_multiple] at most

/-! ### The nearest float -/

/-- Mantissa and exponent of the float nearest to a number. A mantissa that was rounded up to 54
bits is carried. -/
def nearest (n : ℕ) : ℕ × ℤ :=
  if significand n = 2 ^ 53 then (2 ^ 52, n.log2 - 51) else (significand n, n.log2 - 52)

theorem nearest_cases {n : ℕ} (h : n ≠ 0) :
    (significand n = 2 ^ 53 ∧ nearest n = (2 ^ 52, (n.log2 - 51 : ℤ))) ∨
      (2 ^ 52 ≤ significand n ∧ significand n < 2 ^ 53 ∧
        nearest n = (significand n, (n.log2 - 52 : ℤ))) := by
  obtain ⟨low, high⟩ := significand_bounds h
  unfold nearest
  split
  · next carried => exact .inl ⟨carried, rfl⟩
  · next fits => exact .inr ⟨low, lt_of_le_of_ne high fits, rfl⟩

theorem nearest_bounds {n : ℕ} (h : n ≠ 0) : 2 ^ 52 ≤ (nearest n).1 ∧ (nearest n).1 < 2 ^ 53 ∧
    -1074 ≤ (nearest n).2 ∧ (nearest n).2 ≤ n.log2 - 51 := by
  obtain ⟨-, parts⟩ | ⟨low, high, parts⟩ := nearest_cases h
  · rw [parts]
    dsimp only
    omega
  · rw [parts]
    dsimp only
    omega

/-- A greater number has a float that is not less. -/
theorem nearest_mono {m n : ℕ} (hm : m ≠ 0) (h : m ≤ n) :
    toLex ((nearest m).2, ((nearest m).1 : ℤ)) ≤ toLex ((nearest n).2, ((nearest n).1 : ℤ)) := by
  have hn : n ≠ 0 := by omega
  have bits : m.log2 ≤ n.log2 := (Nat.le_log2 hn).2 ((Nat.log2_self_le hm).trans h)
  rw [Prod.Lex.toLex_le_toLex]
  dsimp only
  rcases bits.lt_or_eq with fewer | same
  · obtain ⟨-, hm⟩ | ⟨-, -, hm⟩ := nearest_cases hm <;>
      obtain ⟨-, hn⟩ | ⟨low, -, hn⟩ := nearest_cases hn <;> rw [hm, hn] <;> dsimp only <;> omega
  · have mono := significand_mono same h
    obtain ⟨carried, hm⟩ | ⟨-, -, hm⟩ := nearest_cases hm <;>
      obtain ⟨-, hn⟩ | ⟨-, fits, hn⟩ := nearest_cases hn <;> rw [hm, hn] <;> dsimp only <;> omega

theorem log2_scaled {n : ℕ} (h : n ≠ 0) (k : ℕ) : (n * 2 ^ k).log2 = n.log2 + k := by
  have high : n * 2 ^ k < 2 ^ (n.log2 + 1) * 2 ^ k :=
    Nat.mul_lt_mul_of_pos_right Nat.lt_log2_self (by positivity)
  rw [Nat.log2_eq_iff (by positivity), pow_add, add_right_comm, pow_add _ (n.log2 + 1)]
  exact ⟨Nat.mul_le_mul_right _ (Nat.log2_self_le h), high⟩

theorem targetExponent_eq {m : ℕ} {e : ℤ} (normal : -1021 ≤ m.log2 + e) :
    Format.binary64.targetExponent (totalExponent m e) = m.log2 + e - 52 := by
  simp only [Format.targetExponent, totalExponent, Format.mantissaBits, Format.minExponent]
  omega

/-- A mantissa is shifted until it has 53 bits. -/
theorem shiftToTargetExponent_eq {m k : ℕ} {e : ℤ} (normal : -1021 ≤ m.log2 + e)
    (bits : m.log2 - 52 = k) : shiftToTargetExponent Format.binary64 m e .exact =
      (ExtendedMantissa.ofMantissaAndAccuracy m .exact >>> k, e + k) := by
  have shift : (Format.binary64.targetExponent (totalExponent m e) - e).toNat = k := by
    rw [targetExponent_eq normal]
    omega
  rw [shiftToTargetExponent, shiftToExponent, shift]

theorem shiftToTargetExponent_significand {n : ℕ} (h : n ≠ 0) :
    shiftToTargetExponent Format.binary64 (significand n) (n.log2 - 52) .exact =
      (ExtendedMantissa.ofMantissaAndAccuracy (nearest n).1 .exact, (nearest n).2) := by
  obtain ⟨carried, parts⟩ | ⟨low, high, parts⟩ := nearest_cases h
  · have bits : (2 ^ 53 : ℕ).log2 = 53 := Nat.log2_two_pow
    rw [carried, shiftToTargetExponent_eq (k := 1) (by omega) (by omega), parts]
    exact Prod.ext (shift_multiple (2 ^ 52) 1) (by dsimp only; omega)
  · have bits : (significand n).log2 = 52 := (Nat.log2_eq_iff (by omega)).2 ⟨low, high⟩
    rw [shiftToTargetExponent_eq (k := 0) (by omega) (by omega), parts]
    exact Prod.ext rfl (by simp)

/-- Rounding finds the nearest float. -/
theorem round_eq (s : Sign) {n : ℕ} (h : n ≠ 0) : ∃ positive,
    UnpackedFloat.round Format.binary64 s n 0 = .finite s (nearest n).1 (nearest n).2 positive := by
  have positive : 0 < (nearest n).1 := by
    have := (nearest_bounds h).1
    omega
  have bits := log2_scaled h (52 - n.log2)
  have room : (0 - (n.log2 - 52 : ℤ)).toNat = 52 - n.log2 := by omega
  have filled : decreaseExponent n 0 (Format.binary64.targetExponent (totalExponent n 0)) =
      (n * 2 ^ (52 - n.log2), -((52 - n.log2 : ℕ) : ℤ)) := by
    rw [targetExponent_eq (by omega), add_zero, decreaseExponent, room, Nat.shiftLeft_eq, zero_sub]
  have shifted : shiftToTargetExponent Format.binary64 (n * 2 ^ (52 - n.log2))
      (-((52 - n.log2 : ℕ) : ℤ)) .exact = (ExtendedMantissa.ofMantissaAndAccuracy
        (n * 2 ^ (52 - n.log2)) .exact >>> (n.log2 - 52), (n.log2 - 52 : ℤ)) := by
    rw [shiftToTargetExponent_eq (k := n.log2 - 52) (by omega) (by omega)]
    exact Prod.ext rfl (by dsimp only; omega)
  have carried := shiftToTargetExponent_significand h
  unfold significand rounded at carried
  refine ⟨positive, ?_⟩
  rw [UnpackedFloat.round]
  simp only [filled, roundWithAccuracy, shifted, carried]
  exact dif_neg positive.ne'

/-! ### Packing -/

/-- How bits are read whose exponent is neither least nor most. -/
theorem unpack_packComponents (s : Sign) {biased m : ℕ} (positive : 0 < m) (low : 2 ^ 52 ≤ m)
    (high : m < 2 ^ 53) (above : 0 < biased) (below : biased < 2047) :
    UnpackedFloat.unpack Format.binary64
      (packComponents Format.binary64 s (BitVec.ofNat 11 biased) (BitVec.ofNat 52 m)) =
        .finite s m (biased - 1075) positive := by
  have field : (BitVec.ofNat 11 biased).toNat = biased := by
    rw [BitVec.toNat_ofNat]
    omega
  have other {k : BitVec 11} (apart : biased ≠ k.toNat) : BitVec.ofNat 11 biased ≠ k :=
    fun same => apart (by rw [← same, field])
  have notMost : BitVec.ofNat 11 biased ≠ -1#11 := other below.ne
  have notLeast : BitVec.ofNat 11 biased ≠ 0#11 := other above.ne'
  have mantissa : (1#1 ++ BitVec.ofNat 52 m).toNat = m := by
    rw [BitVec.toNat_append, ← Nat.shiftLeft_add_eq_or_of_lt (BitVec.isLt _), Nat.shiftLeft_eq,
      BitVec.toNat_ofNat, BitVec.toNat_ofNat]
    omega
  simp only [UnpackedFloat.unpack, unpackExponent_packComponents, unpackMantissa_packComponents,
    unpackSign_packComponents, Sign.ofBitVec_toBitVec, if_neg notMost, if_neg notLeast, mantissa,
    field]
  rfl

/-- A mantissa of 53 bits comes back as it was packed, if the exponent is in range. -/
theorem unpack_pack (s : Sign) {m : ℕ} {e : ℤ} (positive : 0 < m) (low : 2 ^ 52 ≤ m)
    (high : m < 2 ^ 53) (least : -1074 ≤ e) (most : e ≤ 971) :
    UnpackedFloat.unpack Format.binary64
      (UnpackedFloat.pack Format.binary64 (.finite s m e positive)) = .finite s m e positive := by
  have bits : m.log2 + 1 = Format.binary64.mantissaBits := by
    rw [(Nat.log2_eq_iff (by omega)).2 ⟨low, high⟩]
    rfl
  have biased : (e + Format.binary64.exponentBias + (52 : ℕ)).toNat = (e + 1075).toNat := by
    rw [show Format.binary64.exponentBias = 1023 from rfl]
    omega
  have packed : UnpackedFloat.pack Format.binary64 (.finite s m e positive) =
      packComponents Format.binary64 s (BitVec.ofNat 11 (e + 1075).toNat) (BitVec.ofNat 52 m) := by
    simp only [UnpackedFloat.pack]
    rw [biased, if_neg (by omega), if_pos bits]
  rw [packed, unpack_packComponents s positive low high (by omega) (by omega)]
  congr 1
  omega

theorem ofInt_pos {z : ℤ} (h : 0 < z) : ∃ positive, UnpackedFloat.ofInt Format.binary64 z =
    .finite .positive (nearest z.natAbs).1 (nearest z.natAbs).2 positive := by
  obtain ⟨positive, parts⟩ := round_eq .positive (Int.natAbs_ne_zero.2 h.ne')
  refine ⟨positive, ?_⟩
  rw [UnpackedFloat.ofInt, UnpackedFloat.normalize, Int.compare_eq_gt.2 h]
  change UnpackedFloat.round _ _ z.toNat 0 = _
  rw [show z.toNat = z.natAbs by omega, parts]

theorem ofInt_neg {z : ℤ} (h : z < 0) : ∃ positive, UnpackedFloat.ofInt Format.binary64 z =
    .finite .negative (nearest z.natAbs).1 (nearest z.natAbs).2 positive := by
  obtain ⟨positive, parts⟩ := round_eq .negative (Int.natAbs_ne_zero.2 h.ne)
  refine ⟨positive, ?_⟩
  rw [UnpackedFloat.ofInt, UnpackedFloat.normalize, Int.compare_eq_lt.2 h]
  change UnpackedFloat.round _ _ (-z).toNat 0 = _
  rw [show (-z).toNat = z.natAbs by omega, parts]

/-- No part of an integer's float is lost in its bits. -/
theorem unpack_ofInt64 (n : Int64) :
    (Number.ofInt64 n).toModel.unpack = UnpackedFloat.ofInt Format.binary64 n.toInt := by
  have range := n.toInt_lt
  have range' := n.le_toInt
  have bits (nonzero : n.toInt.natAbs ≠ 0) : n.toInt.natAbs.log2 < 64 :=
    (Nat.log2_lt nonzero).2 (by omega)
  change UnpackedFloat.unpack _ (UnpackedFloat.pack _ (UnpackedFloat.ofInt _ n.toInt)) = _
  rcases lt_trichotomy n.toInt 0 with negative | zero | positive
  · have nonzero := Int.natAbs_ne_zero.2 negative.ne
    obtain ⟨positive, parts⟩ := ofInt_neg negative
    obtain ⟨low, high, least, most⟩ := nearest_bounds nonzero
    have := bits nonzero
    rw [parts, unpack_pack _ positive low high least (by omega)]
  · rw [zero]
    exact unpack_packedZero
  · have nonzero := Int.natAbs_ne_zero.2 positive.ne'
    obtain ⟨positive, parts⟩ := ofInt_pos positive
    obtain ⟨low, high, least, most⟩ := nearest_bounds nonzero
    have := bits nonzero
    rw [parts, unpack_pack _ positive low high least (by omega)]

/-! ### Integers in order -/

/-- The place of the float nearest to an integer. -/
def wholePlace (z : ℤ) : ℤ ×ₗ ℤ ×ₗ ℤ :=
  if z < 0 then toLex (-1, toLex (-(nearest z.natAbs).2, -(nearest z.natAbs).1))
  else if z = 0 then toLex (0, toLex (0, 0))
  else toLex (1, toLex ((nearest z.natAbs).2, (nearest z.natAbs).1))

theorem floatPlace_ofInt64 (n : Int64) :
    floatPlace (Number.ofInt64 n) = some (wholePlace n.toInt) := by
  rw [floatPlace, unpack_ofInt64, wholePlace]
  rcases lt_trichotomy n.toInt 0 with negative | zero | positive
  · obtain ⟨_, parts⟩ := ofInt_neg negative
    rw [parts, if_pos negative]
    rfl
  · rw [zero]
    rfl
  · obtain ⟨_, parts⟩ := ofInt_pos positive
    rw [parts, if_neg positive.not_gt, if_neg positive.ne']
    rfl

theorem wholePlace_mono {a b : ℤ} (h : a ≤ b) : wholePlace a ≤ wholePlace b := by
  have apart {k l : ℤ} {p q : ℤ ×ₗ ℤ} (less : k < l) : toLex (k, p) ≤ toLex (l, q) :=
    Prod.Lex.toLex_le_toLex.2 (.inl less)
  unfold wholePlace
  by_cases negative : a < 0
  · rw [if_pos negative]
    by_cases negative' : b < 0
    · have mono := nearest_mono (m := b.natAbs) (n := a.natAbs) (by omega) (by omega)
      rw [Prod.Lex.toLex_le_toLex] at mono
      rw [if_pos negative', Prod.Lex.toLex_le_toLex, Prod.Lex.toLex_le_toLex]
      dsimp only at mono ⊢
      omega
    · rw [if_neg negative']
      split
      · exact apart (by decide)
      · exact apart (by decide)
  · rw [if_neg negative, if_neg (show ¬b < 0 by omega)]
    by_cases zero : a = 0
    · rw [if_pos zero]
      split
      · exact le_rfl
      · exact apart (by decide)
    · have mono := nearest_mono (m := a.natAbs) (n := b.natAbs) (by omega) (by omega)
      rw [if_neg zero, if_neg (show b ≠ 0 by omega)]
      exact Prod.Lex.toLex_le_toLex.2 (.inr ⟨rfl, mono⟩)

theorem compareFloat_ofInt64 (m n : Int64) :
    Value.compareFloat (Number.ofInt64 m) (Number.ofInt64 n) =
      some (compare (wholePlace m.toInt) (wholePlace n.toInt)) := by
  rw [compareFloat_eq, floatPlace_ofInt64, floatPlace_ofInt64]
  rfl

/-- Floats of integers are ordered as these are, but that floats of different integers may be
equal. -/
theorem compareFloat_of_isLE {m n : Int64} (h : (compare m n).isLE) :
    ∃ o, Value.compareFloat (Number.ofInt64 m) (Number.ofInt64 n) = some o ∧ o.isLE := by
  have order := wholePlace_mono (Int64.le_iff_toInt_le.1 (Std.isLE_compare.1 h))
  exact ⟨_, compareFloat_ofInt64 m n, Ordering.ne_gt_iff_isLE.1 (compare_le_iff_le.2 order)⟩

/-- Integers whose floats are less are less themselves. -/
theorem compare_of_compareFloat {m n : Int64}
    (h : Value.compareFloat (Number.ofInt64 m) (Number.ofInt64 n) = some .lt) :
    compare m n = .lt := by
  by_contra notLess
  have le : (compare n m).isLE := by
    rw [Std.OrientedOrd.eq_swap]
    cases order : compare m n with
    | lt => exact absurd order notLess
    | eq | gt => rfl
  obtain ⟨p, hp, hle⟩ := compareFloat_of_isLE le
  rw [compareFloat_swap, h] at hp
  cases hp
  cases hle

end EntityQuery.Number
