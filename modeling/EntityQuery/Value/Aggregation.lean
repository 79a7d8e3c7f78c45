import EntityQuery.Value.Operation

/-! Aggregates over a list of values. Nulls are passed over, except by a count. -/
namespace EntityQuery.Aggregate

def mismatch (kind : Aggregate) (v : Value) : EvalError := .typeMismatch kind.label v.kind

/-- A running sum, kept in both number kinds. -/
structure Total where
  count : Nat := 0
  ints : Int64 := 0
  floats : Float := 0
  allInts : Bool := true

def Total.add (kind : Aggregate) (t : Total) : Value → Except EvalError Total
  | .int n =>
    .ok { t with count := t.count + 1, ints := t.ints + n, floats := t.floats + Number.ofInt64 n }
  | .float x => .ok { t with count := t.count + 1, floats := t.floats + x, allInts := false }
  | v => .error (mismatch kind v)

/-- A sum of integers is an integer and wraps around; an average is a float. -/
def Total.result (kind : Aggregate) (t : Total) : Value :=
  if t.count = 0 then .null
  else if kind = .sum then
    if t.allInts then .int t.ints else .float t.floats
  else .float (t.floats / Float.ofNat t.count)

def numeric (kind : Aggregate) (values : List Value) : Except EvalError Value :=
  (values.foldlM (Total.add kind) {}).map (Total.result kind)

/-- The better of the best so far and a new value; of equal ones the earlier stays. -/
def better (kind : Aggregate) (best v : Value) : Except EvalError Value :=
  match Value.compare v best with
  | none => .error (mismatch kind v)
  | some o => .ok (if o == (if kind = .min then .lt else .gt) then v else best)

def extreme (kind : Aggregate) : List Value → Except EvalError Value
  | [] => .ok .null
  | v :: vs => vs.foldlM (better kind) v

def fold (kind : Aggregate) (values : List Value) : Except EvalError Value :=
  let present := values.filter fun v => !v.isNull
  match kind with
  | .count => .ok (.int (.ofNat values.length))
  | .sum | .avg => numeric kind present
  | .min | .max => extreme kind present

end EntityQuery.Aggregate
