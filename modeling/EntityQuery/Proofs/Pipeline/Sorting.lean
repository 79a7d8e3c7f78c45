import EntityQuery.Proofs.Libraries.Plain
import EntityQuery.Proofs.Pipeline.Distinct
import EntityQuery.Proofs.Value.Aggregation

/-! Sorting by keys. A sort by comparison relies on a comparator whose answers fit together. That of
keys does where the keys that cannot be compared do not come between others; then the element that a
sort puts first is the least or the greatest one, as an aggregate finds it. -/
namespace EntityQuery

/-! ### Comparators -/

/-- A comparator as a sort relies on it: from the other side it gives the other answer, and less and
equal are transitive. -/
structure Lawful {α : Type} (order : α → α → Ordering) (l : List α) : Prop where
  swap : ∀ a ∈ l, ∀ b ∈ l, order b a = (order a b).swap
  less : ∀ a ∈ l, ∀ b ∈ l, ∀ c ∈ l, order a b = .lt → order b c = .lt → order a c = .lt
  equal : ∀ a ∈ l, ∀ b ∈ l, ∀ c ∈ l, order a b = .eq → order b c = .eq → order a c = .eq

section Lawful

variable {α : Type} {order : α → α → Ordering} {l : List α}

theorem Lawful.orderedOn (h : Lawful order l) : OrderedOn order l where
  swap := h.swap
  trans a ha b hb c hc hab hbc := by
    by_contra descends
    have back : order c a = .lt := by
      rw [h.swap a ha c hc]
      cases last : order a c with
      | gt => rfl
      | lt | eq => simp [last] at descends
    cases first : order a b with
    | gt => simp [first] at hab
    | lt =>
      have before := h.less c hc a ha b hb back first
      rw [h.swap b hb c hc] at before
      cases second : order b c <;> simp [second] at before hbc
    | eq =>
      cases second : order b c with
      | gt => simp [second] at hbc
      | lt =>
        have before := h.less b hb c hc a ha second back
        simp [h.swap a ha b hb, first] at before
      | eq =>
        have same := h.equal a ha b hb c hc first second
        simp [h.swap a ha c hc, same] at back

theorem OrderedOn.lawful (h : OrderedOn order l) : Lawful order l where
  swap := h.swap
  less a ha b hb c hc hab hbc := by
    have le := h.trans a ha b hb c hc (by rw [hab]; rfl) (by rw [hbc]; rfl)
    cases last : order a c with
    | lt => rfl
    | gt => simp [last] at le
    | eq =>
      have same := h.congr_left ha hc hb last
      simp [hab, h.swap b hb c hc, hbc] at same
  equal a ha b hb c hc hab hbc := by rw [h.congr_left ha hb hc hab, hbc]

end Lawful

namespace Direction

/-- The comparator of a sort. From the other side it always gives the other answer. Where no float
among the keys equals two integers, all of it is lawful if and only if keys that cannot be compared
do not come between others, so in particular if all can be compared. -/
theorem order_lawful_iff (direction : Direction) (keys : List Value) :
    (∀ a b, direction.order b a = (direction.order a b).swap) ∧
      (Value.Unblurred (Value.numbersItems keys) →
        (Lawful direction.order keys ↔ Value.Layered keys) ∧
        ((keys.Pairwise fun a b => (Value.compare a b).isSome) → Lawful direction.order keys)) := by
  refine ⟨direction.order_swap, fun apart => ?_⟩
  have lawful : Lawful direction.order keys ↔ Value.Layered keys :=
    calc Lawful direction.order keys
      _ ↔ OrderedOn direction.order keys := ⟨Lawful.orderedOn, OrderedOn.lawful⟩
      _ ↔ OrderedOn ascending.order keys := orderedOn_order_iff direction
      _ ↔ Value.Layered keys := ⟨layered_of_orderedOn, orderedOn_of_layered apart⟩
  exact ⟨lawful, fun comparable => lawful.2 (Value.layered_of_comparable comparable)⟩

/-- A string and a pair that cannot be compared, both before a null when sorted backwards. -/
theorem order_lawful_apart :
    let keys : List Value := [.string "a", .tuple [.int 1, .float 2.5], .null]
    Value.Unblurred (Value.numbersItems keys) ∧ Value.Layered keys ∧
      Lawful descending.order keys := by
  intro keys
  have apart : Value.Unblurred (Value.numbersItems keys) := by
    intro x m n _ hm hn _ _
    simp only [keys, Value.numbersItems, Value.numbers, List.nil_append, List.append_nil,
      List.mem_cons, List.mem_append, Value.int.injEq, reduceCtorEq, List.not_mem_nil,
      or_false] at hm hn
    rw [hm, hn]
  have layered : Value.Layered keys := by
    unfold Value.Layered
    decide +kernel
  exact ⟨apart, layered, ((order_lawful_iff descending keys).2 apart).1.2 layered⟩

/-- A string that cannot be compared with two integers equals both, and a float too great to be
exact can be equal to two of them. -/
theorem order_not_lawful : ¬Lawful ascending.order [.int 2, .string "a", .int 1] ∧
    ¬Lawful ascending.order
      [.int 9007199254740992, .float 9007199254740992, .int 9007199254740993] := by
  constructor
  · intro lawful
    have same := lawful.equal (.int 2) (by simp) (.string "a") (by simp) (.int 1) (by simp)
      (by decide +kernel) (by decide +kernel)
    revert same
    decide +kernel
  · intro lawful
    have same := lawful.equal (.int 9007199254740992) (by simp) (.float 9007199254740992) (by simp)
      (.int 9007199254740993) (by simp) (by decide +kernel) (by decide +kernel)
    revert same
    decide +kernel

/-! ### Extremes -/

/-- The aggregate that is to find what a sort puts first. -/
def extreme : Direction → Aggregate
  | ascending => .min
  | descending => .max

theorem order_lt_iff {direction : Direction} {a b : Value} :
    direction.order a b = .lt ↔ Value.compare a b = some direction.extreme.toward := by
  cases direction with
  | ascending => exact ascending_lt
  | descending =>
    rw [descending_order, ascending_order]
    cases Value.compare a b with
    | none => decide
    | some o => cases o <;> decide

end Direction

namespace Aggregate

variable {kind : Aggregate} {vs values : List Value}

/-- The values that are not null. -/
def present (values : List Value) : List Value := values.filter fun v => !v.isNull

/-- Of values that can be compared there is a best one. -/
theorem best_isOk {best : Value}
    (comparable : (best :: vs).Pairwise fun a b => (Value.compare a b).isSome) :
    ∃ w, vs.foldlM (better kind) best = .ok w := by
  induction vs generalizing best with
  | nil => exact ⟨best, rfl⟩
  | cons v vs ih =>
    obtain ⟨first, others⟩ := List.pairwise_cons.1 comparable
    have found := first v List.mem_cons_self
    rw [Value.compare_swap v best, Option.isSome_map] at found
    obtain ⟨o, ho⟩ := Option.isSome_iff_exists.1 found
    have step : ∃ b, better kind best v = .ok b ∧ (b = best ∨ b = v) := by
      rw [better, ho]
      exact ⟨_, rfl, (ite_eq_or_eq ..).symm⟩
    obtain ⟨b, stepped, either⟩ := step
    rw [List.foldlM_cons, stepped]
    refine ih ?_
    rcases either with rfl | rfl
    · exact List.pairwise_cons.2 ⟨fun u hu => first u (List.mem_cons_of_mem _ hu), others.tail⟩
    · exact others

/-- What comes first of values sorted in a direction is the extreme in this direction. -/
theorem extreme_eq_head {direction : Direction} (free : ∀ v ∈ vs, v.floatFree)
    (comparable : vs.Pairwise fun a b => (Value.compare a b).isSome) {sorted : List Value}
    (stable : StableSort direction.order vs sorted) :
    extreme direction.extreme vs = .ok (sorted.head?.getD .null) := by
  have ordered : OrderedOn direction.order vs :=
    (orderedOn_order_iff direction).2 (orderedOn_of_floatFree comparable free)
  cases vs with
  | nil =>
    obtain rfl : sorted = [] := List.eq_nil_iff_forall_not_mem.2 fun a ha =>
      List.not_mem_nil (stable.mem a ha)
    rfl
  | cons v vs =>
    obtain ⟨w, found⟩ : ∃ w, vs.foldlM (better direction.extreme) v = .ok w :=
      best_isOk comparable
    obtain ⟨mem, beats⟩ := best_ok found (chained_of_floatFree free)
    have among := (stable.mem_iff ordered).2 mem
    cases sorted with
    | nil => cases among
    | cons first rest =>
      have first_mem := stable.mem first List.mem_cons_self
      -- nothing that is sorted comes before the first, so nothing else beats all others
      have least : (direction.order first w).isLE := by
        rcases List.mem_cons.1 among with rfl | later
        · rw [ordered.refl mem]; rfl
        · exact (List.pairwise_cons.1 stable.sorted).1 w later
      rcases beats first first_mem with rfl | beaten
      · exact found
      · rw [direction.order_swap, Direction.order_lt_iff.2 beaten] at least
        cases least

variable {σ : Type} {engine : Engine σ} {extents : Extents} {rest : Origin → List Item → σ → Prop}

/-- An extreme is what a sort puts first. Of values without floats of which those that are not null
can be compared, the least is the first of these as any stable sort puts them, so also as a sort in
a feed yields them, and the greatest the first as they are sorted backwards; of nulls alone there is
neither. -/
theorem fold_extreme_sorted [Libraries] [Libraries.SortsStably] (direction : Direction)
    (free : ∀ v ∈ values, v.floatFree)
    (comparable : (present values).Pairwise fun a b => (Value.compare a b).isSome)
    (steady : engine.Steady extents rest) {key : ClientFunction}
    (itself : ∀ v ∈ present values, key.given extents [v] = .ok v)
    (enough : 2 * ((present values).length + 1) ≤ engine.steps) {origin : Origin}
    {session : Session σ} (hs : rest origin ((present values).map .ok) session.executor) :
    (∀ sorted, StableSort direction.order (present values) sorted →
      direction.extreme.fold values = .ok (sorted.head?.getD .null)) ∧
    (∃ sorted, Feed.Yields engine (Feed.ofSteps [.sort key direction] origin) session sorted ∧
      StableSort direction.order (present values) sorted) ∧
    (present values = [] → direction.extreme.fold values = .ok .null) := by
  have freePresent : ∀ v ∈ present values, v.floatFree := fun v hv =>
    free v (List.mem_filter.1 hv).1
  have fold : direction.extreme.fold values = extreme direction.extreme (present values) := by
    cases direction <;> rfl
  have ordered : OrderedOn direction.order ((present values).map fun v => v) := by
    rw [List.map_id']
    exact (orderedOn_order_iff direction).2 (orderedOn_of_floatFree comparable freePresent)
  have makes : Step.itemsAll extents [.sort key direction] ((present values).map .ok) = _ :=
    Step.sort_items itself
  refine ⟨fun sorted stable => fold.trans (extreme_eq_head freePresent comparable stable),
    ⟨_, Feed.yields_ofSteps steady makes ?_ hs, Direction.sort_map_stable ordered⟩, fun none => ?_⟩
  · rw [Feed.requests, Step.sort_items itself, Feed.requests, List.length_map, List.length_map,
      Direction.sort_perm.length_eq, List.length_map, List.length_map]
    omega
  · rw [fold, none]
    rfl

/-- `fun x => x` -/
def identityTrace : Trace := ⟨1, [.param 0], 0⟩

/-- Two pairs and a null. -/
def scores : List Value :=
  [.tuple [.int 1, .string "b"], .null, .tuple [.int 1, .string "a"]]

open Libraries.Plain in
/-- Sorted backwards the greater pair comes first. -/
theorem fold_extreme_sorted_scores :
    (∃ sorted, Feed.Yields { executor := Pipeline.twoCustomersExecutor, dialect := .jpql }
      (Feed.ofSteps [.sort (.traced identityTrace) .descending] (.items ((present scores).map .ok)))
      ⟨(), []⟩ sorted ∧ fold .max scores = .ok (sorted.head?.getD .null)) ∧
    fold .max scores = .ok (.tuple [.int 1, .string "b"]) := by
  have free : ∀ v ∈ scores, v.floatFree := by decide
  have itself : ∀ v ∈ present scores,
      (ClientFunction.traced identityTrace).given Pipeline.twoCustomers.extents [v] = .ok v :=
    fun _ _ => rfl
  obtain ⟨found, ⟨sorted, yields, stable⟩, -⟩ := fold_extreme_sorted .descending free (by decide)
    Pipeline.twoCustomersExecutor_loads.steady itself (by decide) ⟨rfl, trivial⟩
  exact ⟨⟨sorted, yields, found sorted stable⟩, rfl⟩

end Aggregate

end EntityQuery
