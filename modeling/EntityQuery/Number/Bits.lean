/-! Floats as text of their bits, from which every float comes back as it was, infinities and the
sign of zero included. Values that are not numbers have one text. -/
namespace EntityQuery.Number

/-- The last hexadecimal digits of a number, as many as asked for. -/
def hexDigits : Nat → Nat → List Char
  | 0, _ => []
  | width + 1, n => hexDigits width (n / 16) ++ [Nat.digitChar (n % 16)]

def bitsText (x : Float) : String :=
  if x.isNaN then "NaN" else String.ofList (hexDigits 16 x.toBits.toNat)

def hexValue? (c : Char) : Option Nat :=
  if c.isDigit then some (c.toNat - '0'.toNat)
  else if 'a' ≤ c ∧ c ≤ 'f' then some (c.toNat - 'a'.toNat + 10)
  else if 'A' ≤ c ∧ c ≤ 'F' then some (c.toNat - 'A'.toNat + 10)
  else none

/-- The number that hexadecimal digits stand for. -/
def ofHexDigits? (digits : List Char) : Option Nat :=
  digits.foldlM (fun n c => (hexValue? c).map (n * 16 + ·)) 0

def ofBitsText? (s : String) : Option Float :=
  if s = "NaN" then some (0.0 / 0.0)
  else if s.length = 16 then (ofHexDigits? s.toList).map fun n => .ofBits (.ofNat n)
  else none

end EntityQuery.Number
