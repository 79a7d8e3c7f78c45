import EntityQuery.Proofs.Libraries.Plain
import EntityQuery.Proofs.Pipeline.Draining
import EntityQuery.Proofs.Pipeline.Pulling
import EntityQuery.Proofs.Value.Signs

/-! What is kept of a list without duplicates. Elements count as duplicates by their texts. Without
NaNs these are the same for values that differ in nothing but the signs of infinities, where equality
passes over the signs of zeros instead. -/
namespace EntityQuery

/-- The elements that are like none before them; `before` stands before the whole list. -/
def novel (like : Value → Value → Bool) (before : List Value) : List Value → List Value
  | [] => []
  | v :: l =>
    if before.any (like · v) then novel like (before ++ [v]) l
    else v :: novel like (before ++ [v]) l

section Novel

variable {like like' : Value → Value → Bool} {before l : List Value}

theorem not_any_of_mem_novel {v : Value} (h : v ∈ novel like before l) :
    before.any (like · v) = false := by
  induction l generalizing before with
  | nil => cases h
  | cons w l ih =>
    have rest (mem : v ∈ novel like (before ++ [w]) l) : before.any (like · v) = false := by
      have none := ih mem
      rw [List.any_append, Bool.or_eq_false_iff] at none
      exact none.1
    rw [novel] at h
    split at h
    · exact rest h
    · next new =>
      rcases List.mem_cons.1 h with rfl | mem
      · exact Bool.eq_false_iff.2 new
      · exact rest mem

/-- An element that is like itself is not kept once it stands before the list. -/
theorem not_mem_novel {v : Value} (self : like v v) : v ∉ novel like (before ++ [v]) l := by
  intro mem
  have none := not_any_of_mem_novel mem
  simp [self] at none

/-- Two notions of likeness keep the same if every element is like one before it in both or in
neither. -/
theorem novel_eq_iff (self : ∀ v ∈ l, like v v) (self' : ∀ v ∈ l, like' v v) :
    novel like before l = novel like' before l ↔ ∀ a v b, l = a ++ v :: b →
      (before ++ a).any (like · v) = (before ++ a).any (like' · v) := by
  induction l generalizing before with
  | nil => simp [novel]
  | cons w l ih =>
    have tail : novel like (before ++ [w]) l = novel like' (before ++ [w]) l ↔ _ :=
      ih (fun v hv => self v (List.mem_cons_of_mem _ hv)) fun v hv =>
        self' v (List.mem_cons_of_mem _ hv)
    have split : (∀ a v b, w :: l = a ++ v :: b →
        (before ++ a).any (like · v) = (before ++ a).any (like' · v)) ↔
        before.any (like · w) = before.any (like' · w) ∧
          novel like (before ++ [w]) l = novel like' (before ++ [w]) l := by
      rw [tail]
      constructor
      · intro agree
        refine ⟨by simpa using agree [] w l rfl, fun a v b parts => ?_⟩
        simpa using agree (w :: a) v b (by rw [parts, List.cons_append])
      · rintro ⟨first, rest⟩ a v b parts
        rcases a with _ | ⟨u, a⟩
        · obtain ⟨rfl, rfl⟩ := List.cons.inj parts
          simpa using first
        · obtain ⟨rfl, rfl⟩ := List.cons.inj parts
          simpa using rest a v b rfl
    rw [split, novel, novel]
    cases one : before.any (like · w) <;> cases two : before.any (like' · w)
    · simp
    · simp only [Bool.false_eq_true, if_false, if_true, false_and, iff_false]
      intro same
      exact not_mem_novel (self' w List.mem_cons_self) (same ▸ List.mem_cons_self)
    · simp only [Bool.false_eq_true, if_false, if_true, reduceCtorEq, false_and, iff_false]
      intro same
      exact not_mem_novel (self w List.mem_cons_self) (same ▸ List.mem_cons_self)
    · simp

/-- Where likeness is sameness of the keys, the first elements of each key are those like none
before them. -/
theorem filter_keepFirst [Libraries]
    (same : ∀ u ∈ before ++ l, ∀ v ∈ l, u.key = v.key ↔ like u v) :
    (keepFirst Value.key l).filter (fun v => !before.any (like · v)) = novel like before l := by
  induction l generalizing before with
  | nil => rfl
  | cons v l ih =>
    have tail : _ = novel like (before ++ [v]) l := ih fun u hu w hw =>
      same u (by simpa using hu) w (List.mem_cons_of_mem _ hw)
    have merged : ((keepFirst Value.key l).filter fun w => w.key ≠ v.key).filter
          (fun w => !before.any (like · w)) = novel like (before ++ [v]) l := by
      rw [List.filter_filter, ← tail]
      refine List.filter_congr fun w hw => ?_
      have agree := same v (by simp) w (List.mem_cons_of_mem _ (mem_of_mem_keepFirst hw))
      rw [List.any_append, List.any_cons, List.any_nil, Bool.or_false, Bool.not_or]
      refine congrArg ((!before.any (like · w)) && ·) ?_
      rw [Bool.eq_iff_iff, decide_eq_true_eq, Bool.not_eq_true', ← Bool.not_eq_true, ← agree]
      exact not_congr eq_comm
    rw [keepFirst, novel]
    split
    · next old => rw [List.filter_cons_of_neg (by simp [old]), merged]
    · next new => rw [List.filter_cons_of_pos (by simp [new]), merged]

end Novel

namespace Feed

open Value Number

section Yielding

variable [Libraries] {σ : Type} {engine : Engine σ} {rest : Origin → List Item → σ → Prop}

/-- Pulled to its end, the feed gives these elements. -/
def Yields (engine : Engine σ) (feed : Feed) (session : Session σ) (vs : List Value) : Prop :=
  (pulls engine (vs.length + 1) feed session).1.1 = vs.map (fun v => some (.ok v)) ++ [none]

/-- The first pulls do not depend on how many follow. -/
theorem pulls_prefix {m n : Nat} (le : m ≤ n) (feed : Feed) (session : Session σ) :
    (pulls engine m feed session).1.1 <+: (pulls engine n feed session).1.1 := by
  induction m generalizing n feed session with
  | zero => exact List.nil_prefix
  | succ m ih =>
    obtain ⟨n, rfl⟩ : ∃ n', n = n' + 1 := ⟨n - 1, by omega⟩
    simp only [pulls, bind, StateT.bind]
    exact List.cons_prefix_cons.2 ⟨rfl, ih (by omega) _ _⟩

omit [Libraries] in
/-- The end comes once. -/
theorem eq_of_prefix {vs ws : List Value}
    (h : vs.map (fun v => some (Except.ok v : Item)) ++ [none] <+:
      ws.map (fun v => some (Except.ok v : Item)) ++ [none]) : vs = ws := by
  induction vs generalizing ws with
  | nil =>
    cases ws with
    | nil => rfl
    | cons w ws => cases (List.cons_prefix_cons.1 h).1
  | cons v vs ih =>
    cases ws with
    | nil => cases (List.cons_prefix_cons.1 h).1
    | cons w ws =>
      obtain ⟨first, others⟩ := List.cons_prefix_cons.1 h
      rw [Except.ok.inj (Option.some.inj first), ih others]

/-- A feed yields one list only. -/
theorem Yields.unique {feed : Feed} {session : Session σ} {vs ws : List Value}
    (h : Yields engine feed session vs) (h' : Yields engine feed session ws) : vs = ws := by
  have short {vs ws : List Value} (h : Yields engine feed session vs)
      (h' : Yields engine feed session ws) (le : vs.length ≤ ws.length) : vs = ws := by
    have begun : (pulls engine (vs.length + 1) feed session).1.1 <+:
      (pulls engine (ws.length + 1) feed session).1.1 := pulls_prefix (Nat.succ_le_succ le) _ _
    rw [h, h'] at begun
    exact eq_of_prefix begun
  rcases Nat.le_total vs.length ws.length with le | le
  · exact short h h' le
  · exact (short h' h le).symm

/-- What is brought without a failure is what the feed yields. -/
theorem yields_of_brings {n : Nat} {stages : List Stage} {l : List Item} {vs : List Value}
    (brings : Brings engine rest n stages l (vs.map .ok)) (enough : n ≤ engine.steps)
    {origin : Origin} {session : Session σ} (hs : rest origin l session.executor) :
    Yields engine ⟨stages, origin⟩ session vs := by
  have pulled := pulls_of_brings brings enough hs
  rw [List.length_map, List.map_map] at pulled
  exact pulled

/-- A feed yields the elements that its steps make of the items of its origin. -/
theorem yields_ofSteps {extents : Extents} (steady : engine.Steady extents rest)
    {steps : List Step} {l : List Item} {vs : List Value}
    (makes : Step.itemsAll extents steps l = vs.map .ok)
    (enough : l.length + 1 + requests extents steps l ≤ engine.steps) {origin : Origin}
    {session : Session σ} (hs : rest origin l session.executor) :
    Yields engine (ofSteps steps origin) session vs :=
  yields_of_brings (makes ▸ brings_ofSteps steady steps l) enough hs

/-- What waits behind a stage that drops duplicates is asked as often as that stage. -/
theorem brings_distinct (extents : Extents) (seen : List String) {n : Nat} {before : List Stage}
    {l l₀ : List Item} (h : Brings engine rest n before l l₀) :
    Brings engine rest n (.distinct seen :: before) l
      ((Stage.distinct seen).items extents l₀) := by
  induction n generalizing before l l₀ seen with
  | zero => exact h
  | succ n ih =>
    intro origin session hs
    obtain ⟨event, before', origin', session', left, left₀, asked, hs', leaves, later⟩ :=
      h origin session hs
    have received {event' : Event} {seen' : List String}
        (received : (Stage.distinct seen).receive engine event session' =
          ((event', .distinct seen'), session')) :
        ask engine (.distinct seen :: before) origin session =
          ((event', .distinct seen' :: before', origin'), session') := by
      simp only [ask, Stage.ready?, bind, StateT.bind, asked, received]
      rfl
    cases event with
    | item item =>
      obtain rfl : l₀ = item :: left₀ := leaves
      have others := later.resolve_left (by simp)
      cases item with
      | ok v =>
        obtain ⟨event', seen', handed, leaves'⟩ :=
          Stage.leaves_distinct extents engine seen v left₀ session'
        exact ⟨event', _, origin', session', left, _, received handed, hs', leaves',
          .inr (ih _ others)⟩
      | error e =>
        exact ⟨.item (.error e), _, origin', session', left, _, received rfl, hs', rfl,
          .inr (ih _ others)⟩
    | again =>
      obtain rfl : l₀ = left₀ := leaves
      exact ⟨.again, _, origin', session', left, _, received rfl, hs', rfl,
        .inr (ih _ (later.resolve_left (by simp)))⟩
    | done =>
      obtain rfl : l₀ = [] := leaves
      exact ⟨.done, _, origin', session', left, left, received rfl, hs', rfl, .inl rfl⟩

/-- Items at hand are brought one after another. -/
theorem brings_items (l : List Item) :
    Brings engine (fun origin l _ => origin = .items l) (l.length + 1) [] l l := by
  induction l with
  | nil =>
    rintro _ session rfl
    exact ⟨.done, [], .items [], session, [], [], rfl, rfl, rfl, .inl rfl⟩
  | cons item l ih =>
    rintro _ session rfl
    exact ⟨.item item, [], .items l, session, l, l, rfl, rfl, rfl, .inr ih⟩

variable {n : Nat} {before : List Stage} {items : List Item} {origin : Origin}
  {session : Session σ} {l : List Value}

/-- Of the values that are brought to it, the step without duplicates keeps those whose text is
new. -/
theorem yields_distinct (brings : Brings engine rest n before items (l.map .ok))
    (enough : n ≤ engine.steps) (hs : rest origin items session.executor) :
    Yields engine ⟨Step.distinct.start :: before, origin⟩ session (keepFirst Value.key l) := by
  have kept : (Stage.distinct []).items (fun _ => .ok []) (l.map .ok) =
      (keepFirst Value.key l).map .ok := by
    rw [← Item.distinct_map_ok]
    exact Stage.items_start .distinct _
  have brought := brings_distinct (fun _ => .ok []) [] brings
  rw [kept] at brought
  exact yields_of_brings brought enough hs

variable [Libraries.JsonNumerals]

theorem novel_of_nanFree (free : ∀ v ∈ l, v.nanFree) :
    keepFirst Value.key l = novel (sameBy (sameUpToSign isInfinite)) [] l := by
  rw [← filter_keepFirst fun u hu v hv => key_eq_iff_sameBy (free u hu) (free v hv)]
  simp

/-- What is kept without duplicates of values without NaNs. The step yields the values that none
before them is the same as but for the signs of infinities, as the text tells only those apart. Texts
agree with equality on two values unless the two differ in nothing but the signs of infinities, or in
nothing but the signs of zeros; and the step yields the values that equal none before them exactly if
each value that is the same as one before it but for the signs of infinities equals one before it,
and the other way round. -/
theorem distinct_yields (free : ∀ v ∈ l, v.nanFree)
    (brings : Brings engine rest n before items (l.map .ok)) (enough : n ≤ engine.steps)
    (hs : rest origin items session.executor) :
    let feed : Feed := ⟨Step.distinct.start :: before, origin⟩
    Yields engine feed session (novel (sameBy (sameUpToSign isInfinite)) [] l) ∧
    (∀ v ∈ l, ∀ w ∈ l, (v.key = w.key ↔ v.sameBy (sameUpToSign isInfinite) w) ∧
      ((v.key = w.key ↔ v == w) ↔ ¬(v ≠ w ∧
        (v.sameBy (sameUpToSign isInfinite) w ∨ v.sameBy (sameUpToSign isZero) w)))) ∧
    (Yields engine feed session (novel (· == ·) [] l) ↔ ∀ a v b, l = a ++ v :: b →
      ((∃ u ∈ a, u.sameBy (sameUpToSign isInfinite) v) ↔ ∃ u ∈ a, u == v)) := by
  intro feed
  have yields := yields_distinct brings enough hs
  rw [novel_of_nanFree free] at yields
  have agree : novel (sameBy (sameUpToSign isInfinite)) [] l = novel (· == ·) [] l ↔
      ∀ a v b, l = a ++ v :: b →
        ((∃ u ∈ a, u.sameBy (sameUpToSign isInfinite) v) ↔ ∃ u ∈ a, u == v) := by
    rw [novel_eq_iff (fun v hv => (key_eq_iff_sameBy (free v hv) (free v hv)).1 rfl)
      fun v hv => beq_self (free v hv)]
    refine forall_congr' fun a => forall_congr' fun v => forall_congr' fun b =>
      imp_congr_right fun _ => ?_
    rw [List.nil_append, Bool.eq_iff_iff, List.any_eq_true, List.any_eq_true]
  refine ⟨yields, fun v hv w hw => ⟨key_eq_iff_sameBy (free v hv) (free w hw),
    key_eq_iff_beq_iff (free v hv) (free w hw)⟩, ?_⟩
  rw [← agree]
  constructor
  · exact yields.unique
  · intro same
    rwa [← same]

end Yielding

/-- The step without duplicates over values at hand, on an executor that has nothing to answer. -/
def YieldsAlone [Libraries] (l vs : List Value) : Prop :=
  Yields { executor := Scripted.executor, dialect := .jpql }
    ⟨[Step.distinct.start], .items (l.map .ok)⟩ ⟨({} : Scripted), []⟩ vs

/-- Twice the same pair, with an infinity of another sign. -/
def quotients : List Value :=
  [.tuple [.float (1 / 0), .int 1], .tuple [.float (-1 / 0), .int 1], .int 1]

open Libraries.Plain in
/-- The second pair is lost. -/
theorem distinct_yields_quotients : (∀ v ∈ quotients, v.nanFree) ∧
    YieldsAlone quotients [.tuple [.float (1 / 0), .int 1], .int 1] := by
  have numbers : (1 / 0 : Float) ≠ Float.nan ∧ (-1 / 0 : Float) ≠ Float.nan := by decide +kernel
  have free : ∀ v ∈ quotients, v.nanFree := by
    simp [quotients, nanFree, nanFreeItems, numbers]
  have infinite : sameUpToSign isInfinite (1 / 0) (-1 / 0) = true := by decide +kernel
  have kept : novel (sameBy (sameUpToSign isInfinite)) [] quotients =
      [.tuple [.float (1 / 0), .int 1], .int 1] := by
    simp [novel, quotients, sameBy, sameItemsBy, infinite]
  have yields : YieldsAlone quotients (novel (sameBy (sameUpToSign isInfinite)) [] quotients) :=
    And.left (distinct_yields free (brings_items _) (by decide) rfl)
  rw [kept] at yields
  exact ⟨free, yields⟩

/-- Both infinities and both zeros. -/
def twins : List Value := [.float (1 / 0), .float (-1 / 0), .float 0, .float (-0)]

open Libraries.Plain in
/-- One infinity is lost, although it equals none before it, and a zero that equals the one before it
is repeated. -/
theorem not_yields_novel_twins : (∀ v ∈ twins, v.nanFree) ∧
    novel (· == ·) [] twins = [.float (1 / 0), .float (-1 / 0), .float 0] ∧
    YieldsAlone twins [.float (1 / 0), .float 0, .float (-0)] ∧
    ¬YieldsAlone twins (novel (· == ·) [] twins) := by
  have numbers : (1 / 0 : Float) ≠ Float.nan ∧ (-1 / 0 : Float) ≠ Float.nan ∧
      (0 : Float) ≠ Float.nan ∧ (-0 : Float) ≠ Float.nan := by decide +kernel
  have free : ∀ v ∈ twins, v.nanFree := by simp [twins, nanFree, numbers]
  have written : sameUpToSign isInfinite (1 / 0) (-1 / 0) = true ∧
      sameUpToSign isInfinite (1 / 0) 0 = false ∧ sameUpToSign isInfinite (-1 / 0) 0 = false ∧
      sameUpToSign isInfinite (1 / 0) (-0) = false ∧
      sameUpToSign isInfinite (-1 / 0) (-0) = false ∧ sameUpToSign isInfinite 0 (-0) = false := by
    decide +kernel
  have equal : ((1 / 0 : Float) == -1 / 0) = false ∧ ((1 / 0 : Float) == 0) = false ∧
      ((-1 / 0 : Float) == 0) = false ∧ ((0 : Float) == -0) = true := by decide +kernel
  have claimed : novel (· == ·) [] twins = [.float (1 / 0), .float (-1 / 0), .float 0] := by
    have same (x y : Float) : (Value.float x == Value.float y) = (x == y) := rfl
    simp [novel, twins, same, equal]
  have kept : keepFirst Value.key twins = [.float (1 / 0), .float 0, .float (-0)] := by
    rw [novel_of_nanFree free]
    simp [novel, twins, sameBy, written]
  have yields : YieldsAlone twins (keepFirst Value.key twins) :=
    yields_distinct (brings_items _) (by decide) rfl
  rw [kept] at yields
  refine ⟨free, claimed, yields, fun other => ?_⟩
  have same := yields.unique other
  rw [claimed] at same
  have apart : (0 : Float) ≠ -1 / 0 := by decide +kernel
  simp [apart] at same

end Feed
end EntityQuery
