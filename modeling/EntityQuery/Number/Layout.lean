import EntityQuery.Number.Shortest

/-! How a float is written: which exponents are positional, and the marks around digits. -/
namespace EntityQuery.Number

/-- The decisions of one written form. `positional` is asked for the power of ten of the
first digit. -/
structure Layout where
  tie : Tie
  positional : Int → Bool
  /-- Whether a whole number is written with `.0`. -/
  wholePoint : Bool
  /-- Whether a positive exponent carries a sign. -/
  plusSign : Bool

def digits (n : Nat) : List Char := Nat.toDigits 10 n

def signed (n : Int) : List Char :=
  if n < 0 then '-' :: digits n.natAbs else digits n.natAbs

namespace Layout

def zeros (n : Nat) : List Char := List.replicate n '0'

/-- Digits with a point `places` before their end, or with zeros up to the point. -/
def position (layout : Layout) (ds : List Char) (exponent : Int) : List Char :=
  if 0 ≤ exponent then
    ds ++ zeros exponent.toNat ++ if layout.wholePoint then ['.', '0'] else []
  else
    let places := (-exponent).toNat
    if places < ds.length then
      ds.take (ds.length - places) ++ '.' :: ds.drop (ds.length - places)
    else '0' :: '.' :: zeros (places - ds.length) ++ ds

def scientific (layout : Layout) (ds : List Char) (lead : Int) : List Char :=
  let mantissa := match ds with
    | d :: e :: rest => d :: '.' :: e :: rest
    | short => short
  let sign := if layout.plusSign && 0 ≤ lead then ['+'] else []
  mantissa ++ 'e' :: sign ++ signed lead

def decimal (layout : Layout) (d : Decimal) : List Char :=
  let ds := digits d.coefficient
  let lead := d.exponent + ds.length - 1
  if layout.positional lead then layout.position ds d.exponent else layout.scientific ds lead

/-- Zero keeps its sign. -/
def write (layout : Layout) (x : Float) : List Char :=
  match Binary64.ofFloat x with
  | .nan => ['N', 'a', 'N']
  | .infinite negative => (if negative then ['-'] else []) ++ ['i', 'n', 'f']
  | .finite negative mantissa exponent =>
    (if negative then ['-'] else []) ++
      if mantissa = 0 then layout.decimal ⟨0, 0⟩
      else layout.decimal (shortest layout.tie mantissa exponent)

end Layout
end EntityQuery.Number
