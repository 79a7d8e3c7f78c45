import EntityQuery.Json.Number
import EntityQuery.Number.Bits

/-! Numbers and truth values of TOML documents. -/
namespace EntityQuery.Toml

/-- Digits, between any two of which an underscore may stand. -/
def digits? (isDigit : Char → Bool) : List Char → Option (List Char)
  | [] => none
  | [c] => if isDigit c then some [c] else none
  | c :: '_' :: rest => if isDigit c then (digits? isDigit rest).map (c :: ·) else none
  | c :: rest => if isDigit c then (digits? isDigit rest).map (c :: ·) else none

def valueIn (base : Nat) (digits : List Char) : Nat :=
  digits.foldl (fun n c => n * base + (Number.hexValue? c).getD 0) 0

/-- Digits that start with a zero only if that is all. -/
def decimal? (cs : List Char) : Option (List Char) := do
  match ← digits? Char.isDigit cs with
  | '0' :: _ :: _ => none
  | ds => some ds

def isHexDigit (c : Char) : Bool := (Number.hexValue? c).isSome

def isOctalDigit (c : Char) : Bool := '0' ≤ c && c ≤ '7'

def isBinaryDigit (c : Char) : Bool := c == '0' || c == '1'

/-- The exponent after its mark. -/
def power? : List Char → Option Int
  | '-' :: cs => (digits? Char.isDigit cs).map fun ds => -valueIn 10 ds
  | '+' :: cs => (digits? Char.isDigit cs).map fun ds => valueIn 10 ds
  | cs => (digits? Char.isDigit cs).map fun ds => valueIn 10 ds

def isExponentMark (c : Char) : Bool := c == 'e' || c == 'E'

/-- Fraction digits and power of ten after the whole part. -/
def tail? (cs : List Char) : Option (List Char × Int) := do
  let (fraction, rest) ← match cs with
    | '.' :: rest =>
      let part := rest.takeWhile fun c => !isExponentMark c
      (digits? Char.isDigit part).map (·, rest.drop part.length)
    | rest => some ([], rest)
  match rest with
  | [] => some (fraction, 0)
  | mark :: rest => if isExponentMark mark then (power? rest).map (fraction, ·) else none

/-- A number without sign. One that is too large for a float is infinite. -/
def unsigned? (negative : Bool) (cs : List Char) : Option Json :=
  if cs = ['i', 'n', 'f'] then some (.float (if negative then -(1.0 / 0.0) else 1.0 / 0.0))
  else if cs = ['n', 'a', 'n'] then some (.float (0.0 / 0.0))
  else do
    let part := cs.takeWhile fun c => c != '.' && !isExponentMark c
    let whole ← decimal? part
    match cs.drop part.length with
    | [] =>
      let n : Int := valueIn 10 whole
      some (.int (if negative then -n else n))
    | rest =>
      let (fraction, power) ← tail? rest
      some (.float ((Json.readFloat negative whole fraction power).getD (1.0 / 0.0)))

/-- A number or truth value that takes up the whole run of characters. -/
def scalar? : List Char → Option Json
  | ['t', 'r', 'u', 'e'] => some (.bool true)
  | ['f', 'a', 'l', 's', 'e'] => some (.bool false)
  | '0' :: 'x' :: cs => (digits? isHexDigit cs).map fun ds => .int (valueIn 16 ds)
  | '0' :: 'o' :: cs => (digits? isOctalDigit cs).map fun ds => .int (valueIn 8 ds)
  | '0' :: 'b' :: cs => (digits? isBinaryDigit cs).map fun ds => .int (valueIn 2 ds)
  | '-' :: cs => unsigned? true cs
  | '+' :: cs => unsigned? false cs
  | cs => unsigned? false cs

end EntityQuery.Toml
