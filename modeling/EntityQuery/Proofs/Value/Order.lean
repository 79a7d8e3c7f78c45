import EntityQuery.Proofs.Number.Widening
import EntityQuery.Proofs.Pipeline.StableSort

/-! The order of values. From the other side it is always the other one. It is transitive where no
float equals two different integers, as some do beyond 53 bits: there the keys of a sort are in a
total order when those that cannot be compared do not come between others. Values without floats
that come out equal are the same. -/
namespace EntityQuery

namespace Value

mutual

/-- Whether no float occurs in a value. -/
def floatFree : Value → Bool
  | float _ => false
  | list items | tuple items => floatFreeItems items
  | entity _ attributes => floatFreeEntries attributes
  | _ => true

def floatFreeItems : List Value → Bool
  | [] => true
  | item :: items => floatFree item && floatFreeItems items

def floatFreeEntries : List (String × Value) → Bool
  | [] => true
  | (_, value) :: rest => floatFree value && floatFreeEntries rest

end

mutual

/-- Values that come out equal are the same. -/
theorem eq_of_compare : (a b : Value) → a.floatFree → b.floatFree → compare a b = some .eq → a = b
  | null, b, _, _, h => by cases b <;> simp_all [compare]
  | bool a, b, _, _, h => by
    cases b <;> simp only [compare, Option.some.injEq, reduceCtorEq] at h
    rw [Std.LawfulEqOrd.eq_of_compare h]
  | int a, b, _, free, h => by
    cases b <;> simp only [compare, Option.some.injEq, reduceCtorEq, floatFree] at h free
    rw [Std.LawfulEqOrd.eq_of_compare h]
  | string a, b, _, _, h => by
    cases b <;> simp only [compare, Option.some.injEq, reduceCtorEq] at h
    rw [Std.LawfulEqOrd.eq_of_compare h]
  | entity _ _, b, _, _, h => by cases b <;> simp_all [compare]
  | list a, b, free, free', h => by
    cases b <;> simp only [compare, reduceCtorEq, Option.some.injEq] at h
    rw [eq_of_compareItems a _ free free' h]
  | tuple a, b, free, free', h => by
    cases b <;> simp only [compare, reduceCtorEq, Option.some.injEq] at h
    rw [eq_of_compareItems a _ free free' h]

theorem eq_of_compareItems : (as bs : List Value) → floatFreeItems as → floatFreeItems bs →
    compareItems as bs = some .eq → as = bs
  | [], [], _, _, _ => rfl
  | [], _ :: _, _, _, h => by simp [compareItems] at h
  | _ :: _, [], _, _, h => by simp [compareItems] at h
  | a :: as, b :: bs, free, free', h => by
    simp only [floatFreeItems, Bool.and_eq_true] at free free'
    rw [compareItems] at h
    split at h
    · next same =>
      rw [eq_of_compare a b free.1 free'.1 same, eq_of_compareItems as bs free.2 free'.2 h]
    · next decided => exact absurd h decided

end

mutual

/-- From the other side the order is the other one. -/
theorem compare_swap : (a b : Value) → compare b a = (compare a b).map Ordering.swap
  | null, b => by cases b <;> rfl
  | bool a, b => by
    cases b <;> simp only [compare, Option.map_some, Option.map_none]
    · rfl
    · rw [Std.OrientedOrd.eq_swap]
  | int a, b => by
    cases b <;> simp only [compare, Option.map_some, Option.map_none]
    · rfl
    · rw [Std.OrientedOrd.eq_swap]
    · exact Number.compareFloat_swap _ _
  | float x, b => by
    cases b <;> simp only [compare, Option.map_some, Option.map_none]
    · rfl
    · exact Number.compareFloat_swap _ _
    · exact Number.compareFloat_swap _ _
  | string a, b => by
    cases b <;> simp only [compare, Option.map_some, Option.map_none]
    · rfl
    · rw [Std.OrientedOrd.eq_swap]
  | entity _ _, b => by cases b <;> rfl
  | list a, b => by
    cases b <;> simp only [compare, Option.map_some, Option.map_none]
    · rfl
    · exact compareItems_swap a _
  | tuple a, b => by
    cases b <;> simp only [compare, Option.map_some, Option.map_none]
    · rfl
    · exact compareItems_swap a _

theorem compareItems_swap : (as bs : List Value) →
    compareItems bs as = (compareItems as bs).map Ordering.swap
  | [], [] => rfl
  | [], _ :: _ => rfl
  | _ :: _, [] => rfl
  | a :: as, b :: bs => by
    rw [compareItems, compareItems, compare_swap a b]
    cases compare a b with
    | none => rfl
    | some o =>
      cases o with
      | eq => exact compareItems_swap as bs
      | lt | gt => rfl

end

/-! ### Transitivity -/

mutual

/-- The numbers in a value, also in sequences. Entities are not ordered, so theirs do not matter. -/
def numbers : Value → List Value
  | int n => [int n]
  | float x => [float x]
  | list items | tuple items => numbersItems items
  | null | bool _ | string _ | entity _ _ => []

def numbersItems : List Value → List Value
  | [] => []
  | item :: items => numbers item ++ numbersItems items

end

/-- No float equals two different integers. -/
def Unblurred (ns : List Value) : Prop :=
  ∀ x m n, float x ∈ ns → int m ∈ ns → int n ∈ ns →
    compare (int m) (float x) = some .eq → compare (int n) (float x) = some .eq → m = n

theorem numbers_subset_items {v : Value} {vs : List Value} (h : v ∈ vs) :
    v.numbers ⊆ numbersItems vs := by
  induction vs with
  | nil => cases h
  | cons w vs ih =>
    rw [numbersItems]
    rcases List.mem_cons.1 h with rfl | h
    · exact List.subset_append_left _ _
    · exact List.Subset.trans (ih h) (List.subset_append_right _ _)

mutual

theorem float_notMem_numbers {x : Float} : (v : Value) → v.floatFree → float x ∉ v.numbers
  | null, _ | bool _, _ | string _, _ | entity _ _, _ => List.not_mem_nil
  | int _, _ => by simp [numbers]
  | list items, free => float_notMem_numbersItems items free
  | tuple items, free => float_notMem_numbersItems items free

theorem float_notMem_numbersItems {x : Float} :
    (vs : List Value) → floatFreeItems vs → float x ∉ numbersItems vs
  | [], _ => List.not_mem_nil
  | v :: vs, free => by
    simp only [floatFreeItems, Bool.and_eq_true] at free
    rw [numbersItems, List.mem_append, not_or]
    exact ⟨float_notMem_numbers v free.1, float_notMem_numbersItems vs free.2⟩

end

theorem floatFreeItems_iff (vs : List Value) : floatFreeItems vs ↔ ∀ v ∈ vs, v.floatFree := by
  induction vs with
  | nil => simp [floatFreeItems]
  | cons v vs ih => simp [floatFreeItems, ih]

theorem unblurred_of_floatFree {vs : List Value} (free : ∀ v ∈ vs, v.floatFree) :
    Unblurred (numbersItems vs) := fun _ _ _ hx =>
  absurd hx (float_notMem_numbersItems vs ((floatFreeItems_iff vs).2 free))

section Numbers

-- Integers are compared with each other as they are, and with floats as they are rounded. Where
-- rounding makes two of them equal, `apart` keeps the float from being equal to both.
variable {m n : Int64} {x : Float} {o o' : Ordering}

theorem int_int_float_then
    (apart : compare (int m) (float x) = some .eq → compare (int n) (float x) = some .eq → m = n)
    (le : (Ord.compare m n).isLE) (hnx : compare (int n) (float x) = some o') (le' : o'.isLE) :
    compare (int m) (float x) = some ((Ord.compare m n).then o') := by
  obtain ⟨p, hp, hle⟩ := Number.compareFloat_of_isLE le
  have chain : compare (int m) (float x) = _ := Number.compareFloat_then hp hle hnx le'
  cases first : Ord.compare m n with
  | gt => rw [first] at le; cases le
  | eq => rwa [Std.LawfulEqOrd.eq_of_compare first]
  | lt =>
    cases p with
    | gt => cases hle
    | lt => exact chain
    | eq =>
      cases o' with
      | gt => cases le'
      | lt => exact chain
      | eq =>
        obtain rfl := apart chain hnx
        simp at first

theorem float_int_int_then
    (apart : compare (int m) (float x) = some .eq → compare (int n) (float x) = some .eq → m = n)
    (hxm : compare (float x) (int m) = some o) (le : o.isLE) (le' : (Ord.compare m n).isLE) :
    compare (float x) (int n) = some (o.then (Ord.compare m n)) := by
  obtain ⟨p, hp, hle⟩ := Number.compareFloat_of_isLE le'
  have chain : compare (float x) (int n) = _ := Number.compareFloat_then hxm le hp hle
  cases o with
  | gt => cases le
  | lt => exact chain
  | eq =>
    cases last : Ord.compare m n with
    | gt => rw [last] at le'; cases le'
    | eq => rwa [← Std.LawfulEqOrd.eq_of_compare last]
    | lt =>
      cases p with
      | gt => cases hle
      | lt => exact chain
      | eq =>
        obtain rfl := apart (by rw [compare_swap, hxm]; rfl) (by rw [compare_swap, chain]; rfl)
        simp at last

theorem int_float_int_then
    (apart : compare (int m) (float x) = some .eq → compare (int n) (float x) = some .eq → m = n)
    (hmx : compare (int m) (float x) = some o) (le : o.isLE)
    (hxn : compare (float x) (int n) = some o') (le' : o'.isLE) :
    Ord.compare m n = o.then o' := by
  have chain := Number.compareFloat_then hmx le hxn le'
  cases o with
  | gt => cases le
  | lt => exact Number.compare_of_compareFloat chain
  | eq =>
    cases o' with
    | gt => cases le'
    | lt => exact Number.compare_of_compareFloat chain
    | eq =>
      obtain rfl := apart hmx (by rw [compare_swap, hxn]; rfl)
      exact Std.ReflCmp.compare_self

/-- An integer or a float. -/
inductive IsNumber : Value → Prop
  | int (n : Int64) : IsNumber (int n)
  | float (x : Float) : IsNumber (float x)

variable {a b c : Value}

/-- What a number can be compared with and does not come after is a number. -/
theorem IsNumber.of_compare (ha : a.IsNumber) (h : compare a b = some o) (le : o.isLE) :
    b.IsNumber := by
  cases b with
  | int n => exact .int n
  | float y => exact .float y
  | null => cases ha <;> (cases h; cases le)
  | _ => cases ha <;> cases h

theorem IsNumber.compare_then {ns : List Value} (apart : Unblurred ns) (ha : a.IsNumber)
    (hb : b.IsNumber) (hc : c.IsNumber) (ma : a.numbers ⊆ ns) (mb : b.numbers ⊆ ns)
    (mc : c.numbers ⊆ ns) (hab : compare a b = some o) (le : o.isLE)
    (hbc : compare b c = some o') (le' : o'.isLE) : compare a c = some (o.then o') := by
  cases ha with
  | int m =>
    cases hb with
    | int n =>
      obtain rfl := Option.some.inj hab
      cases hc with
      | int k =>
        obtain rfl := Option.some.inj hbc
        exact congrArg some (Number.compare_then le le')
      | float x =>
        exact int_int_float_then (apart x m n (mc List.mem_cons_self) (ma List.mem_cons_self)
          (mb List.mem_cons_self)) le hbc le'
    | float x =>
      cases hc with
      | int n =>
        exact congrArg some (int_float_int_then (apart x m n (mb List.mem_cons_self)
          (ma List.mem_cons_self) (mc List.mem_cons_self)) hab le hbc le')
      | float y => exact Number.compareFloat_then hab le hbc le'
  | float x =>
    cases hb with
    | int m =>
      cases hc with
      | int n =>
        obtain rfl := Option.some.inj hbc
        exact float_int_int_then (apart x m n (ma List.mem_cons_self) (mb List.mem_cons_self)
          (mc List.mem_cons_self)) hab le le'
      | float y => exact Number.compareFloat_then hab le hbc le'
    | float y => cases hc <;> exact Number.compareFloat_then hab le hbc le'

end Numbers

section Null

variable {a b c : Value} {o o' : Ordering}

theorem compare_null_left (h : a ≠ null) : compare null a = some .lt := by
  cases a with
  | null => exact absurd rfl h
  | _ => rfl

/-- Nothing but null comes before null or is equal to it. -/
theorem eq_null_of_compare (h : compare a null = some o) (le : o.isLE) : a = null := by
  by_contra other
  rw [compare_swap, compare_null_left other] at h
  obtain rfl := Option.some.inj h
  cases le

theorem compare_null_then (hab : compare null b = some o) (hbc : compare b c = some o')
    (le' : o'.isLE) : compare null c = some (o.then o') := by
  by_cases hb : b = null
  · subst hb
    obtain rfl := Option.some.inj hab
    exact hbc
  · have hc : c ≠ null := by
      rintro rfl
      exact hb (eq_null_of_compare hbc le')
    rw [compare_null_left hb] at hab
    obtain rfl := Option.some.inj hab
    exact compare_null_left hc

end Null

mutual

/-- What is decided between values that do not descend is decided by the first of them that are not
equal. -/
theorem compare_then {ns : List Value} (apart : Unblurred ns) : (a b c : Value) →
    a.numbers ⊆ ns → b.numbers ⊆ ns → c.numbers ⊆ ns → ∀ {o o' : Ordering},
    compare a b = some o → o.isLE → compare b c = some o' → o'.isLE →
    compare a c = some (o.then o')
  | null, _, _, _, _, _, _, _, hab, _, hbc, le' => compare_null_then hab hbc le'
  | int m, _, _, ha, hb, hc, _, _, hab, le, hbc, le' =>
    have second := (IsNumber.int m).of_compare hab le
    have third := second.of_compare hbc le'
    (IsNumber.int m).compare_then apart second third ha hb hc hab le hbc le'
  | float x, _, _, ha, hb, hc, _, _, hab, le, hbc, le' =>
    have second := (IsNumber.float x).of_compare hab le
    have third := second.of_compare hbc le'
    (IsNumber.float x).compare_then apart second third ha hb hc hab le hbc le'
  | bool a, b, c, _, _, _, o, o', hab, le, hbc, le' => by
    cases b <;> simp only [compare, Option.some.injEq, reduceCtorEq] at hab
    · subst hab; cases le
    cases c <;> simp only [compare, Option.some.injEq, reduceCtorEq] at hbc ⊢
    · subst hbc; cases le'
    subst hab hbc
    exact Number.compare_then le le'
  | string a, b, c, _, _, _, o, o', hab, le, hbc, le' => by
    cases b <;> simp only [compare, Option.some.injEq, reduceCtorEq] at hab
    · subst hab; cases le
    cases c <;> simp only [compare, Option.some.injEq, reduceCtorEq] at hbc ⊢
    · subst hbc; cases le'
    subst hab hbc
    exact Number.compare_then le le'
  | entity _ _, b, c, _, _, _, o, o', hab, le, hbc, le' => by
    cases b <;> simp only [compare, Option.some.injEq, reduceCtorEq] at hab
    subst hab
    cases le
  | list as, b, c, ha, hb, hc, o, o', hab, le, hbc, le' => by
    cases b <;> simp only [compare, Option.some.injEq, reduceCtorEq] at hab
    · subst hab; cases le
    cases c <;> simp only [compare, Option.some.injEq, reduceCtorEq] at hbc ⊢
    · subst hbc; cases le'
    exact compareItems_then apart as _ _ ha hb hc hab le hbc le'
  | tuple as, b, c, ha, hb, hc, o, o', hab, le, hbc, le' => by
    cases b <;> simp only [compare, Option.some.injEq, reduceCtorEq] at hab
    · subst hab; cases le
    cases c <;> simp only [compare, Option.some.injEq, reduceCtorEq] at hbc ⊢
    · subst hbc; cases le'
    exact compareItems_then apart as _ _ ha hb hc hab le hbc le'

theorem compareItems_then {ns : List Value} (apart : Unblurred ns) : (as bs cs : List Value) →
    numbersItems as ⊆ ns → numbersItems bs ⊆ ns → numbersItems cs ⊆ ns → ∀ {o o' : Ordering},
    compareItems as bs = some o → o.isLE → compareItems bs cs = some o' → o'.isLE →
    compareItems as cs = some (o.then o')
  | [], [], _, _, _, _, _, _, hab, _, hbc, _ => by
    obtain rfl := Option.some.inj hab
    exact hbc
  | _, _ :: _, [], _, _, _, _, _, _, _, hbc, le' => by
    obtain rfl := Option.some.inj hbc
    cases le'
  | _ :: _, [], _, _, _, _, _, _, hab, le, _, _ => by
    obtain rfl := Option.some.inj hab
    cases le
  | [], _ :: _, _ :: _, _, _, _, _, _, hab, _, _, _ => by
    obtain rfl := Option.some.inj hab
    rfl
  | a :: as, b :: bs, c :: cs, ha, hb, hc, o, o', hab, le, hbc, le' => by
    rw [numbersItems, List.append_subset] at ha hb hc
    rw [compareItems] at hab hbc ⊢
    cases first : compare a b with
    | none => rw [first] at hab; cases hab
    | some p =>
    cases second : compare b c with
    | none => rw [second] at hbc; cases hbc
    | some q =>
    rw [first] at hab
    rw [second] at hbc
    cases p with
    | gt => cases hab; cases le
    | lt =>
      obtain rfl := Option.some.inj hab
      cases q with
      | gt => cases hbc; cases le'
      | lt | eq => rw [compare_then apart a b c ha.1 hb.1 hc.1 first rfl second rfl]; rfl
    | eq =>
      cases q with
      | gt => cases hbc; cases le'
      | lt =>
        obtain rfl := Option.some.inj hbc
        rw [compare_then apart a b c ha.1 hb.1 hc.1 first rfl second rfl]
        cases o with
        | gt => cases le
        | lt | eq => rfl
      | eq =>
        rw [compare_then apart a b c ha.1 hb.1 hc.1 first rfl second rfl]
        exact compareItems_then apart as bs cs ha.2 hb.2 hc.2 hab le hbc le'

end

/-- A key that cannot be compared with one of two ordered keys stands to the other as that one
does. -/
def Layered (keys : List Value) : Prop :=
  ∀ a ∈ keys, ∀ b ∈ keys, ∀ c ∈ keys, compare a c = some .lt →
    (compare a b = none → compare b c = some .lt) ∧ (compare b c = none → compare a b = some .lt)

theorem layered_of_comparable {keys : List Value}
    (comparable : keys.Pairwise fun a b => (compare a b).isSome) : Layered keys := by
  have symmetric : Std.Symm fun a b => (compare a b).isSome = true := ⟨fun a b h => by
    rwa [compare_swap, Option.isSome_map]⟩
  have same : ∀ a ∈ keys, ∀ b ∈ keys, compare a b = none → a = b := fun a ha b hb unordered => by
    by_contra different
    simpa [unordered] using comparable.forall ha hb different
  intro a ha b hb c hc less
  exact ⟨fun h => same a ha b hb h ▸ less, fun h => (same b hb c hc h).symm ▸ less⟩

end Value

/-! ### The order of keys -/

namespace Direction

theorem order_swap (direction : Direction) (a b : Value) :
    direction.order b a = (direction.order a b).swap := by
  unfold order
  rw [Value.compare_swap a b]
  cases Value.compare a b with
  | none => cases direction <;> rfl
  | some o => cases direction <;> rfl

theorem ascending_order (a b : Value) : ascending.order a b = (Value.compare a b).getD .eq := rfl

theorem ascending_lt {a b : Value} :
    ascending.order a b = .lt ↔ Value.compare a b = some .lt := by
  rw [ascending_order]
  cases Value.compare a b <;> simp

theorem descending_order (a b : Value) : descending.order a b = (ascending.order a b).swap := rfl

end Direction

variable {keys : List Value}

theorem layered_of_orderedOn (h : OrderedOn Direction.ascending.order keys) :
    Value.Layered keys := by
  intro a ha b hb c hc less
  have order := Direction.ascending_lt.2 less
  constructor
  · intro unordered
    have equal : Direction.ascending.order a b = .eq := congrArg (·.getD .eq) unordered
    rwa [← Direction.ascending_lt, ← h.congr_left ha hb hc equal]
  · intro unordered
    have equal : Direction.ascending.order b c = .eq := congrArg (·.getD .eq) unordered
    have side := h.congr_left hb hc ha equal
    rwa [← Direction.ascending_lt, h.swap b hb a ha, side, ← h.swap c hc a ha]

theorem orderedOn_of_layered (apart : Value.Unblurred (Value.numbersItems keys))
    (layered : Value.Layered keys) : OrderedOn Direction.ascending.order keys where
  swap a _ b _ := Direction.order_swap _ a b
  trans a ha b hb c hc hab hbc := by
    by_contra descends
    have back : Value.compare c a = some .lt := by
      rw [← Direction.ascending_lt, Direction.order_swap]
      cases order : Direction.ascending.order a c with
      | gt => rfl
      | lt | eq => exact absurd (by rw [order]; rfl) descends
    obtain ⟨left, right⟩ := layered c hc b hb a ha back
    cases first : Value.compare a b with
    | none =>
      -- what `a` is not ordered with comes after `c`
      have before := right (by rw [Value.compare_swap, first]; rfl)
      rw [Direction.order_swap, Direction.ascending_lt.2 before] at hbc
      cases hbc
    | some o =>
    cases second : Value.compare b c with
    | none =>
      have before := left (by rw [Value.compare_swap, second]; rfl)
      rw [Direction.order_swap, Direction.ascending_lt.2 before] at hab
      cases hab
    | some o' =>
    rw [Direction.ascending_order, first] at hab
    rw [Direction.ascending_order, second] at hbc
    have chain := Value.compare_then apart a b c (Value.numbers_subset_items ha)
      (Value.numbers_subset_items hb) (Value.numbers_subset_items hc) first hab second hbc
    rw [Direction.ascending_order, chain] at descends
    exact descends (Ordering.isLE_then_iff_and.2 ⟨hab, .inr hbc⟩)

theorem orderedOn_order_iff (direction : Direction) :
    OrderedOn direction.order keys ↔ OrderedOn Direction.ascending.order keys := by
  cases direction with
  | ascending => rfl
  | descending =>
    refine ⟨fun h => h.reverse.congr fun a _ b _ => ?_, OrderedOn.reverse⟩
    rw [Direction.descending_order, Ordering.swap_swap]

/-- Values without floats are in a total order when any two of them can be compared. -/
theorem orderedOn_of_floatFree
    (comparable : keys.Pairwise fun a b => (Value.compare a b).isSome)
    (free : ∀ k ∈ keys, k.floatFree) : OrderedOn Direction.ascending.order keys :=
  orderedOn_of_layered (Value.unblurred_of_floatFree free) (Value.layered_of_comparable comparable)

/-- Keys that say where elements go: any two can be compared, and where floats occur among them
their comparisons make a total order. -/
structure Sortable (keys : List Value) : Prop where
  comparable : keys.Pairwise fun a b => (Value.compare a b).isSome
  ordered : (∀ k ∈ keys, k.floatFree) ∨ OrderedOn Direction.ascending.order keys

theorem Sortable.orderedOn {keys : List Value} (h : Sortable keys) (direction : Direction) :
    OrderedOn direction.order keys := by
  have ascending : OrderedOn Direction.ascending.order keys :=
    h.ordered.elim (orderedOn_of_floatFree h.comparable) id
  cases direction with
  | ascending => exact ascending
  | descending => exact ascending.reverse

end EntityQuery
