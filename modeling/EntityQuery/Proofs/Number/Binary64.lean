import EntityQuery.Number.Binary64
import Mathlib

/-! Floats taken apart. The sign, mantissa and exponent tell which float it is; there is one value
that is not a number. -/
namespace EntityQuery.Number.Binary64

/-- The mantissa and the exponent of a finite float: the mantissa fills 53 bits unless the exponent
is least. -/
structure Canonical (mantissa : Nat) (exponent : Int) : Prop where
  bound : mantissa < 2 * hiddenBit
  least : -1074 ≤ exponent
  most : exponent ≤ 971
  full : -1074 < exponent → hiddenBit ≤ mantissa

/-- How the bits of a float are read. -/
theorem ofFloat_cases (x : Float) :
    let bits := x.toBits.toNat
    let negative : Bool := signBit ≤ bits
    (bits / hiddenBit % 0x800 = 2047 ∧ bits % hiddenBit ≠ 0 ∧ ofFloat x = nan) ∨
    (bits / hiddenBit % 0x800 = 2047 ∧ bits % hiddenBit = 0 ∧ ofFloat x = infinite negative) ∨
    (bits / hiddenBit % 0x800 = 0 ∧ ofFloat x = finite negative (bits % hiddenBit) (-1074)) ∨
    (bits / hiddenBit % 0x800 ≠ 0 ∧ bits / hiddenBit % 0x800 ≠ 2047 ∧
      ofFloat x = finite negative (bits % hiddenBit + hiddenBit)
        ((bits / hiddenBit % 0x800 : Nat) - 1075)) := by
  intro bits negative
  unfold ofFloat
  dsimp only
  split
  · next top =>
    split
    · next none => exact .inr (.inl ⟨top, none, rfl⟩)
    · next some => exact .inl ⟨top, some, rfl⟩
  · next below =>
    split
    · next least => exact .inr (.inr (.inl ⟨least, rfl⟩))
    · next above => exact .inr (.inr (.inr ⟨above, below, rfl⟩))

theorem canonical_of_ofFloat {x : Float} {negative : Bool} {mantissa : Nat} {exponent : Int}
    (h : ofFloat x = finite negative mantissa exponent) : Canonical mantissa exponent := by
  have fraction : x.toBits.toNat % hiddenBit < hiddenBit := Nat.mod_lt _ (by decide)
  obtain ⟨-, -, taken⟩ | ⟨-, -, taken⟩ | ⟨-, taken⟩ | ⟨above, below, taken⟩ := ofFloat_cases x
  · cases taken.symm.trans h
  · cases taken.symm.trans h
  · obtain ⟨-, rfl, rfl⟩ := finite.inj (taken.symm.trans h)
    exact ⟨by omega, by decide, by decide, fun lt => absurd lt (Int.lt_irrefl _)⟩
  · obtain ⟨-, rfl, rfl⟩ := finite.inj (taken.symm.trans h)
    have := Nat.mod_lt (x.toBits.toNat / hiddenBit) (by decide : 0 < 0x800)
    exact ⟨by omega, by omega, by omega, fun _ => by omega⟩

open Float.Model.UnpackedFloat in
/-- There is one value that is not a number. -/
theorem eq_nan_of_ofFloat {x : Float} (h : ofFloat x = nan) : x = Float.nan := by
  obtain ⟨top, some, -⟩ | ⟨-, -, taken⟩ | ⟨-, taken⟩ | ⟨-, -, taken⟩ := ofFloat_cases x
  · have exponent : @unpackExponent .binary64 x.toBits.toBitVec = -1#11 := by
      refine BitVec.eq_of_toNat_eq ?_
      simpa [unpackExponent, Nat.shiftRight_eq_div_pow, hiddenBit] using top
    have mantissa : @unpackMantissa .binary64 x.toBits.toBitVec ≠ 0#52 := by
      intro none
      have := congrArg BitVec.toNat none
      exact some (by simpa [unpackMantissa, hiddenBit] using this)
    refine Float.toBits_inj.1 (UInt64.toBitVec_inj.1 ?_)
    exact (x.toModel.valid.eq_packedNaN exponent mantissa).trans (by decide)
  · cases taken.symm.trans h
  · cases taken.symm.trans h
  · cases taken.symm.trans h

/-- The parts tell which float it is. -/
theorem ofFloat_injective : Function.Injective ofFloat := by
  intro x y h
  have bound := x.toBits.toNat_lt
  have bound' := y.toBits.toNat_lt
  obtain ⟨-, -, taken⟩ | ⟨top, none, taken⟩ | ⟨least, taken⟩ | ⟨above, below, taken⟩ :=
    ofFloat_cases x
  · rw [eq_nan_of_ofFloat taken, eq_nan_of_ofFloat (h.symm.trans taken)]
  all_goals
    obtain ⟨-, -, taken'⟩ | ⟨top', none', taken'⟩ | ⟨least', taken'⟩ | ⟨above', below', taken'⟩ :=
      ofFloat_cases y
    all_goals
      have parts := taken.symm.trans (h.trans taken')
      simp only [reduceCtorEq, infinite.injEq, finite.injEq, decide_eq_decide] at parts
  all_goals
    refine Float.toBits_inj.1 (UInt64.toNat_inj.1 ?_)
    simp only [hiddenBit, signBit] at *
    omega

end EntityQuery.Number.Binary64
