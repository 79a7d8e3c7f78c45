import EntityQuery.Value.Basic

/-! The partial order of values: null first, numbers across integers and floats, and sequences
member by member. Values of unrelated kinds, and entities, are not ordered. -/
namespace EntityQuery.Value

def compareFloat (a b : Float) : Option Ordering :=
  if a < b then some .lt
  else if a == b then some .eq
  else if b < a then some .gt
  else none

mutual

/-- A NaN is not ordered with any number. -/
def compare : Value → Value → Option Ordering
  | null, null => some .eq
  | null, _ => some .lt
  | _, null => some .gt
  | int a, int b => some (Ord.compare a b)
  | bool a, bool b => some (Ord.compare a b)
  | string a, string b => some (Ord.compare a b)
  | tuple a, tuple b => compareItems a b
  | list a, list b => compareItems a b
  | int a, float b => compareFloat (Number.ofInt64 a) b
  | float a, int b => compareFloat a (Number.ofInt64 b)
  | float a, float b => compareFloat a b
  | _, _ => none

/-- The first unequal members decide; of two sequences that agree the shorter comes first. -/
def compareItems : List Value → List Value → Option Ordering
  | [], [] => some .eq
  | [], _ :: _ => some .lt
  | _ :: _, [] => some .gt
  | a :: as, b :: bs =>
    match compare a b with
    | some .eq => compareItems as bs
    | decided => decided

end

end EntityQuery.Value
