import EntityQuery.Proofs.Pipeline.Refinement
import EntityQuery.Proofs.Pipeline.Serving
import EntityQuery.Proofs.Pipeline.StableSort

/-! Steps on whole lists. Where every function of a step succeeds on each element, the step makes
one list of another, and a feed that is drained to the end brings that list. -/
namespace EntityQuery

variable [Libraries]

/-- What a step makes of a list when all its functions succeed. -/
inductive Step.Makes (db : Database) : Step → List Value → List Value → Prop
  | map {f : ClientFunction} {g : Value → Value} {l : List Value}
    (succeeds : ∀ v ∈ l, f.on db [v] = .ok (g v)) : Makes db (.map f) l (l.map g)
  | filter {f : ClientFunction} {keep : Value → Bool} {l : List Value}
    (succeeds : ∀ v ∈ l, f.on db [v] = .ok (.bool (keep v))) :
    Makes db (.filter f) l (l.filter keep)
  | flatMap {f : ClientFunction} {items : Value → List Value} {l : List Value}
    (succeeds : ∀ v ∈ l, f.on db [v, .null] = .ok (.list (items v))) :
    Makes db (.flatMap f) l (l.flatMap fun v => (items v).map v.pair)
  | sort {f : ClientFunction} {direction : Direction} {key : Value → Value} {l : List Value}
    (succeeds : ∀ v ∈ l, f.on db [v] = .ok (key v)) :
    Makes db (.sort f direction) l (direction.sort (l.map fun v => (key v, v)))
  | distinct {l : List Value} : Makes db .distinct l (keepFirst Value.key l)
  | skip {n : UInt64} {l : List Value} : Makes db (.skip n) l (l.drop n.toNat)
  | limit {n : UInt64} {l : List Value} : Makes db (.limit n) l (l.take n.toNat)

/-- Steps applied in order. -/
inductive Step.MakeAll (db : Database) : List Step → List Value → List Value → Prop
  | nil {l : List Value} : MakeAll db [] l l
  | snoc {steps : List Step} {step : Step} {l l' l'' : List Value} (before : MakeAll db steps l l')
    (last : step.Makes db l' l'') : MakeAll db (steps ++ [step]) l l''

variable {db : Database}

/-- Where the first occurrences are kept of elements alone, they are kept of items. -/
theorem Item.distinct_map_ok (l : List Value) :
    Item.distinct (l.map .ok) = (keepFirst Value.key l).map .ok := by
  induction l with
  | nil => rfl
  | cons v l ih =>
    rw [List.map_cons, Item.distinct, ih, keepFirst, List.map_cons, List.filter_map]
    refine congrArg (fun l => Except.ok v :: List.map Except.ok l)
      (List.filter_congr fun w _ => ?_)
    simp [Item.keyIn]

omit [Libraries] in
theorem Item.skip_map_ok (n : Nat) (l : List Value) :
    Item.skip n (l.map .ok) = (l.drop n).map .ok := by
  induction l generalizing n with
  | nil => cases n <;> rfl
  | cons v l ih =>
    cases n with
    | zero => exact Item.skip_zero _
    | succ n => exact ih n

omit [Libraries] in
theorem Item.limit_map_ok (n : Nat) (l : List Value) :
    Item.limit n (l.map .ok) = (l.take n).map .ok := by
  induction l generalizing n with
  | nil => cases n <;> rfl
  | cons v l ih =>
    cases n with
    | zero => exact Item.limit_zero _
    | succ n => exact congrArg (.ok v :: ·) (ih n)

/-- Where each element has a key, elements are sorted by their keys. -/
theorem Step.sort_items {extents : Extents} {f : ClientFunction} {direction : Direction}
    {key : Value → Value} {l : List Value}
    (succeeds : ∀ v ∈ l, f.given extents [v] = .ok (key v)) :
    (Step.sort f direction).items extents (l.map .ok) =
      (direction.sort (l.map fun v => (key v, v))).map .ok := by
  have keyed : (l.map Except.ok).mapM (Item.keyed extents f) =
      .ok (l.map fun v => (key v, v)) := by
    induction l with
    | nil => rfl
    | cons v l ih =>
      obtain ⟨first, others⟩ := List.forall_mem_cons.1 succeeds
      have given : Item.keyed extents f (.ok v) = .ok (key v, v) := by
        rw [Item.keyed, Except.bind, first]
        rfl
      rw [List.map_cons, List.mapM_cons, given, ih others]
      rfl
  rw [Step.items, keyed]
  rfl

/-- What a step makes of elements it makes of them as items. -/
theorem Step.Makes.items {step : Step} {l l' : List Value} (makes : step.Makes db l l') :
    step.items db.extents (l.map .ok) = l'.map .ok := by
  cases makes with
  | map succeeds =>
    rw [Step.items, List.map_map, List.map_map]
    exact List.map_congr_left fun v hv => ClientFunction.given_of_on (succeeds v hv)
  | @filter f keep _ succeeds =>
    rw [Step.items]
    induction l with
    | nil => rfl
    | cons v l ih =>
      obtain ⟨first, others⟩ := List.forall_mem_cons.1 succeeds
      have given := ClientFunction.given_of_on first
      rw [List.map_cons, List.filterMap_cons, ih others]
      cases hkeep : keep v <;> simp [Item.filtered, given, hkeep]
  | @flatMap f items _ succeeds =>
    rw [Step.items, List.flatMap_map, List.map_flatMap]
    refine List.flatMap_congr fun v hv => ?_
    simp only [Item.joined, ClientFunction.given_of_on (succeeds v hv)]
    rfl
  | @sort f direction key _ succeeds =>
    exact Step.sort_items fun v hv => ClientFunction.given_of_on (succeeds v hv)
  | distinct => exact Item.distinct_map_ok l
  | skip => exact Item.skip_map_ok _ l
  | limit => exact Item.limit_map_ok _ l

theorem Step.MakeAll.itemsAll {steps : List Step} {l l' : List Value}
    (makes : Step.MakeAll db steps l l') :
    Step.itemsAll db.extents steps (l.map .ok) = l'.map .ok := by
  induction makes with
  | nil => rfl
  | snoc _ last ih =>
    rw [Step.itemsAll, List.foldl_append] at *
    rw [ih]
    exact last.items

/-- With steps enough for each request, a feed of a list is collected to what its steps make of
it. -/
theorem Feed.collect_ofSteps {steps : List Step} {l l' : List Value}
    (makes : Step.MakeAll db steps l l') :
    ∃ n, ∀ {σ : Type} {engine : Engine σ} {inv : σ → Prop}, engine.Serves db inv →
      n ≤ engine.steps → ∀ session, inv session.executor →
        (collect engine .ok (ofSteps steps (.items (l.map .ok))) session).1 = .ok l' := by
  let items : List Item := l.map .ok
  refine ⟨items.length + 1 + requests db.extents steps items, ?_⟩
  intro σ engine inv serves enough session hs
  have loads : engine.Loads db.extents inv := serves
  rw [collect_of_steady loads.steady enough .ok ⟨rfl, hs⟩]
  exact Item.collect_eq_ok_iff.2 makes.itemsAll

end EntityQuery
