/-! Names for the sources of a query: `A` to `Z`, then `AA`, `AB` and so on. -/
namespace EntityQuery.Alias

def letter (n : Nat) : Char := Char.ofNat ('A'.toNat + n % 26)

/-- Letters are digits from 1 to 26, so every word over them is the name of one number. -/
def letters (n : Nat) : List Char :=
  if n < 26 then [letter n] else letters (n / 26 - 1) ++ [letter n]
termination_by n

def name (n : Nat) : String := String.ofList (letters n)

/-- Two-letter words of the query language, which are no names. -/
def reserved : List String := ["AS", "BY", "IN", "IS", "OF", "ON", "OR", "TO"]

/-- The first `count` names that are not reserved; so many numbers hold enough of them. -/
def names (count : Nat) : List String :=
  let candidates := (List.range (count + reserved.length)).map name
  (candidates.filter fun n => !reserved.contains n).take count

end EntityQuery.Alias
