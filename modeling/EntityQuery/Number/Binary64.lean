/-! Floats as exact numbers: sign, mantissa and power of two, the remainder of a division, computed
on integers, and the floats that integers widen to. -/
namespace EntityQuery.Number

/-- A float taken apart. A finite one is `mantissa * 2 ^ exponent`, negated if `negative`. -/
inductive Binary64 where
  | nan
  | infinite (negative : Bool)
  | finite (negative : Bool) (mantissa : Nat) (exponent : Int)
deriving Repr, DecidableEq

namespace Binary64

/-- The bit above the 52 bits of the fraction. -/
def hiddenBit : Nat := 0x10000000000000

/-- The highest of 64 bits. -/
def signBit : Nat := 0x8000000000000000

def ofFloat (x : Float) : Binary64 :=
  let bits := x.toBits.toNat
  let negative : Bool := signBit ≤ bits
  let exponent : Nat := bits / hiddenBit % 0x800
  let fraction := bits % hiddenBit
  if exponent = 2047 then
    if fraction = 0 then .infinite negative else .nan
  else if exponent = 0 then .finite negative fraction (-1074)
  else .finite negative (fraction + hiddenBit) (exponent - 1075)

/-- Shift the mantissa up until it fills 53 bits or the exponent is least. -/
def normalize (mantissa : Nat) (exponent : Int) : Nat × Int :=
  let room := 52 - mantissa.log2
  let shift := min room (exponent + 1074).toNat
  (mantissa * Nat.pow 2 shift, exponent - shift)

/-- Exact for a mantissa below `2 ^ 53` and an exponent from -1074 to 971. -/
def toFloat : Binary64 → Float
  | nan => 0.0 / 0.0
  | infinite negative => if negative then -1.0 / 0.0 else 1.0 / 0.0
  | finite negative mantissa exponent =>
    let (m, q) := normalize mantissa exponent
    let sign := if negative then signBit else 0
    if m < hiddenBit then Float.ofBits (sign + m).toUInt64
    else Float.ofBits (sign + (q + 1075).toNat * hiddenBit + (m - hiddenBit)).toUInt64

/-- The sign is the dividend's and the result is exact; a zero divisor and an infinite
dividend have no remainder. -/
def remainder : Binary64 → Binary64 → Binary64
  | finite _ _ _, finite _ 0 _ => nan
  | finite s m q, finite _ n r =>
    let e := min q r
    finite s (m * Nat.pow 2 (q - e).toNat % (n * Nat.pow 2 (r - e).toNat)) e
  | finite s m q, infinite _ => finite s m q
  | _, _ => nan

end Binary64

def remainder (x y : Float) : Float :=
  ((Binary64.ofFloat x).remainder (Binary64.ofFloat y)).toFloat

def isFinite (x : Float) : Bool :=
  match Binary64.ofFloat x with
  | .finite .. => true
  | _ => false

/-- The float nearest to an integer; of two that are as near, the one with the even mantissa. -/
def ofInt64 (n : Int64) : Float := .ofModel (.ofInt64 n)

/-- The sign bit, which a zero has too. -/
def isNegative (x : Float) : Bool := Binary64.signBit ≤ x.toBits.toNat

end EntityQuery.Number
