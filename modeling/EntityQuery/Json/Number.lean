import EntityQuery.Json.Basic

/-! Numbers in JSON text. Digits are gathered as long as they fit 64 bits, and the gathered whole
number is scaled once by a power of ten. -/
namespace EntityQuery.Json

/-- A number taken apart: `significand * 10 ^ exponent`, negated if `negative`. -/
structure Scanned where
  significand : Nat
  exponent : Int
  /-- Whether a digit was left out, after which no more are gathered. -/
  full : Bool
deriving Repr

namespace Scanned

def fits (significand : Nat) : Bool := significand < UInt64.size

def digitValue (c : Char) : Nat := c.toNat - '0'.toNat

/-- A whole digit left out counts as a power of ten. -/
def wholeDigit (s : Scanned) (c : Char) : Scanned :=
  let next := s.significand * 10 + digitValue c
  if !s.full && fits next then { s with significand := next }
  else { s with exponent := s.exponent + 1, full := true }

def fractionDigit (s : Scanned) (c : Char) : Scanned :=
  let next := s.significand * 10 + digitValue c
  if !s.full && fits next then { s with significand := next, exponent := s.exponent - 1 }
  else { s with full := true }

def ofDigits (whole fraction : List Char) : Scanned :=
  let s := whole.foldl wholeDigit ⟨0, 0, false⟩
  fraction.foldl fractionDigit { s with full := false }

end Scanned

def powerOfTen (n : Nat) : Float := Float.ofScientific 1 false n

/-- One step for an exponent of at most 308; a smaller one is reached by dividing by `1e308`,
a larger one is out of range. -/
def scale : Nat → Float → Int → Option Float
  | 0, x, _ => some x
  | steps + 1, x, e =>
    if e.natAbs ≤ 308 then
      if e < 0 then some (x / powerOfTen e.natAbs)
      else
        let y := x * powerOfTen e.natAbs
        if Number.isFinite y then some y else none
    else if x == 0 then some x
    else if 0 ≤ e then none
    else scale steps (x / powerOfTen 308) (e + 308)

def decimalValue (digits : List Char) : Nat :=
  digits.foldl (fun n c => n * 10 + Scanned.digitValue c) 0

/-- An exponent of more than 31 bits stands for zero, or is out of range. -/
def readFloat (negative : Bool) (whole fraction : List Char) (power : Int) : Option Float :=
  let s := Scanned.ofDigits whole fraction
  let magnitude :=
    if power.natAbs < 0x80000000 then scale 4 s.significand.toUInt64.toFloat (s.exponent + power)
    else if s.significand ≠ 0 ∧ 0 < power then none
    else some 0
  magnitude.map fun x => if negative then -x else x

/-- A number without point and exponent that fits 64 bits stays whole. -/
def readWhole (negative : Bool) (whole : List Char) : Option Json :=
  let n := decimalValue whole
  if !negative && n < UInt64.size then some (.int n)
  else if negative && 0 < n && n ≤ Int64.minValue.toInt.natAbs then some (.int (-n))
  else (readFloat negative whole [] 0).map .float

/-- The digits of an exponent, after its mark. -/
def readPower : List Char → Option (Int × List Char)
  | '-' :: rest => digitsOf rest fun n => -n
  | '+' :: rest => digitsOf rest fun n => n
  | rest => digitsOf rest fun n => n
where
  digitsOf (cs : List Char) (sign : Int → Int) : Option (Int × List Char) :=
    match cs.span Char.isDigit with
    | ([], _) => none
    | (ds, rest) => some (sign (decimalValue ds), rest)

/-- Fraction digits and power of ten, if there are any. -/
def readTail (cs : List Char) : Option (Option (List Char × Int) × List Char) := do
  let (fraction, rest) ← match cs with
    | '.' :: rest =>
      match rest.span Char.isDigit with
      | ([], _) => none
      | (ds, rest) => some (some ds, rest)
    | _ => some (none, cs)
  match rest with
  | 'e' :: rest | 'E' :: rest =>
    let (power, rest) ← readPower rest
    some (some (fraction.getD [], power), rest)
  | _ => some (fraction.map (·, 0), rest)

/-- A leading zero stands alone before the point. -/
def readNumber (cs : List Char) : Option (Json × List Char) := do
  let (negative, cs) := match cs with
    | '-' :: rest => (true, rest)
    | _ => (false, cs)
  match cs.span Char.isDigit with
  | ([], _) => none
  | ('0' :: _ :: _, _) => none
  | (whole, rest) =>
    let (tail, rest) ← readTail rest
    match tail with
    | none => (readWhole negative whole).map (·, rest)
    | some (fraction, power) => (readFloat negative whole fraction power).map (.float ·, rest)

end EntityQuery.Json
