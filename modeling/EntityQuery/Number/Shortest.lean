import EntityQuery.Number.Binary64

/-! The fewest decimal digits that identify a float. Every real between the two half-way
points around a float rounds to it; the coarsest power of ten with a multiple in that
interval gives the digits, and of two such multiples the nearer one is taken. -/
namespace EntityQuery.Number

/-- `coefficient * 10 ^ exponent`. -/
structure Decimal where
  coefficient : Nat
  exponent : Int
deriving Repr, DecidableEq

/-- Which of two equally near decimals is taken. -/
inductive Tie where
  | up
  | toEven
deriving Repr, DecidableEq

/-- The reals that round to a positive float, with the float itself, as multiples of a
quarter of its last place, which is `2 ^ exponent`. The ends belong to it when `closed`. -/
structure RoundingInterval where
  low : Nat
  value : Nat
  high : Nat
  exponent : Int
  closed : Bool

/-- Below a power of two the gap to the next float is half as wide. -/
def RoundingInterval.of (mantissa : Nat) (exponent : Int) : RoundingInterval where
  low := 4 * mantissa - if mantissa = Binary64.hiddenBit ∧ -1074 < exponent then 1 else 2
  value := 4 * mantissa
  high := 4 * mantissa + 2
  exponent := exponent - 2
  closed := mantissa % 2 = 0

namespace RoundingInterval

/-- Common factors that make multiples of `2 ^ exponent` and of `10 ^ k` comparable integers. -/
def scales (i : RoundingInterval) (k : Int) : Nat × Nat :=
  (Nat.pow 2 i.exponent.toNat * Nat.pow 10 (-k).toNat,
    Nat.pow 2 (-i.exponent).toNat * Nat.pow 10 k.toNat)

/-- Whether `c * 10 ^ k` rounds to the float. -/
def contains (i : RoundingInterval) (k : Int) (c : Nat) : Bool :=
  let (s, d) := i.scales k
  if i.closed then i.low * s ≤ c * d && c * d ≤ i.high * s
  else i.low * s < c * d && c * d < i.high * s

/-- The nearest multiple of `10 ^ k` that rounds to the float, if one does. -/
def nearest? (i : RoundingInterval) (tie : Tie) (k : Int) : Option Decimal :=
  let (s, d) := i.scales k
  let below := i.value * s / d
  let above := below + 1
  match i.contains k below, i.contains k above with
  | false, false => none
  | true, false => some ⟨below, k⟩
  | false, true => some ⟨above, k⟩
  | true, true =>
    let left := i.value * s - below * d
    let right := above * d - i.value * s
    if left < right then some ⟨below, k⟩
    else if right < left then some ⟨above, k⟩
    else match tie with
      | .up => some ⟨above, k⟩
      | .toEven => some ⟨if below % 2 = 0 then below else above, k⟩

end RoundingInterval

/-- A power of ten above a positive float; 0.30103 is just above the logarithm of two. -/
def topExponent (mantissa : Nat) (exponent : Int) : Int :=
  (mantissa.log2 + 1 + exponent) * 30103 / 100000 + 2

/-- Seventeen digits always identify a float, so some power in the range has a hit. -/
def shortest (tie : Tie) (mantissa : Nat) (exponent : Int) : Decimal :=
  let top := topExponent mantissa exponent
  let interval := RoundingInterval.of mantissa exponent
  ((List.range 24).findSome? fun (step : Nat) => interval.nearest? tie (top - step)).getD ⟨0, 0⟩

end EntityQuery.Number
