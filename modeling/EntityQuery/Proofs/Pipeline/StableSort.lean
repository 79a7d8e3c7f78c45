import EntityQuery.Pipeline.Step
import Mathlib.Data.List.Basic

/-! Stable sorts. Such a sort keeps the order of elements of equal rank; there is one of each list,
so it commutes with whatever keeps ranks and their order: filters, first occurrences, elements that
multiply. A sort by a second order after one by a first is the sort by both, and the sort of a
pipeline is stable. -/
namespace EntityQuery

variable {α β γ : Type}

/-- On the members of a list the order is total. -/
structure OrderedOn (order : α → α → Ordering) (l : List α) : Prop where
  swap : ∀ a ∈ l, ∀ b ∈ l, order b a = (order a b).swap
  trans : ∀ a ∈ l, ∀ b ∈ l, ∀ c ∈ l,
    (order a b).isLE → (order b c).isLE → (order a c).isLE

namespace OrderedOn

variable {order second : α → α → Ordering} {l l' : List α}

theorem mono (h : OrderedOn order l) (sub : ∀ a ∈ l', a ∈ l) : OrderedOn order l' where
  swap a ha b hb := h.swap a (sub a ha) b (sub b hb)
  trans a ha b hb c hc := h.trans a (sub a ha) b (sub b hb) c (sub c hc)

/-- Elements have the ranks of what they are sent to. -/
theorem of_map {order : β → β → Ordering} {f : α → β} (h : OrderedOn order (l.map f)) :
    OrderedOn (fun a b => order (f a) (f b)) l where
  swap _ ha _ hb := h.swap _ (List.mem_map_of_mem ha) _ (List.mem_map_of_mem hb)
  trans _ ha _ hb _ hc :=
    h.trans _ (List.mem_map_of_mem ha) _ (List.mem_map_of_mem hb) _ (List.mem_map_of_mem hc)

theorem map {order : β → β → Ordering} {f : α → β}
    (h : OrderedOn (fun a b => order (f a) (f b)) l) :
    OrderedOn order (l.map f) where
  swap := by
    simp only [List.forall_mem_map]
    exact h.swap
  trans := by
    simp only [List.forall_mem_map]
    exact h.trans

theorem congr {order' : α → α → Ordering} (h : OrderedOn order l)
    (same : ∀ a ∈ l, ∀ b ∈ l, order' a b = order a b) : OrderedOn order' l where
  swap a ha b hb := by rw [same a ha b hb, same b hb a ha, h.swap a ha b hb]
  trans a ha b hb c hc := by
    rw [same a ha b hb, same b hb c hc, same a ha c hc]
    exact h.trans a ha b hb c hc

/-- Elements that become several of their own rank stay in order. -/
theorem flatMap {order' : β → β → Ordering} {f : α → List β} (h : OrderedOn order l)
    (rank : ∀ a ∈ l, ∀ a' ∈ l, ∀ b ∈ f a, ∀ b' ∈ f a', order' b b' = order a a') :
    OrderedOn order' (l.flatMap f) where
  swap b hb b' hb' := by
    obtain ⟨a, ha, hb⟩ := List.mem_flatMap.1 hb
    obtain ⟨a', ha', hb'⟩ := List.mem_flatMap.1 hb'
    rw [rank a ha a' ha' b hb b' hb', rank a' ha' a ha b' hb' b hb, h.swap a ha a' ha']
  trans b hb b' hb' b'' hb'' := by
    obtain ⟨a, ha, hb⟩ := List.mem_flatMap.1 hb
    obtain ⟨a', ha', hb'⟩ := List.mem_flatMap.1 hb'
    obtain ⟨a'', ha'', hb''⟩ := List.mem_flatMap.1 hb''
    rw [rank a ha a' ha' b hb b' hb', rank a' ha' a'' ha'' b' hb' b'' hb'',
      rank a ha a'' ha'' b hb b'' hb'']
    exact h.trans a ha a' ha' a'' ha''

theorem const (l : List α) : OrderedOn (fun _ _ => .eq) l where
  swap _ _ _ _ := rfl
  trans _ _ _ _ _ _ _ _ := rfl

theorem refl (h : OrderedOn order l) {a : α} (ha : a ∈ l) : order a a = .eq := by
  have same := h.swap a ha a ha
  generalize order a a = o at same
  cases o <;> simp_all [Ordering.swap]

/-- Elements of equal rank compare alike. -/
theorem congr_left (h : OrderedOn order l) {a b c : α} (ha : a ∈ l) (hb : b ∈ l) (hc : c ∈ l)
    (hab : order a b = .eq) : order a c = order b c := by
  have hba : order b a = .eq := by rw [h.swap a ha b hb, hab]; rfl
  have le := h.trans a ha b hb c hc (by rw [hab]; rfl)
  have le' := h.trans b hb a ha c hc (by rw [hba]; rfl)
  have ge := fun h' => h.trans c hc b hb a ha h' (by rw [hba]; rfl)
  have ge' := fun h' => h.trans c hc a ha b hb h' (by rw [hab]; rfl)
  rw [h.swap a ha c hc, h.swap b hb c hc] at ge ge'
  generalize order a c = o at *
  generalize order b c = o' at *
  cases o <;> cases o' <;> simp_all [Ordering.swap, Ordering.isLE]

/-- Where the first order is undecided the second one decides. -/
theorem lex (first : OrderedOn order l) (h : OrderedOn second l) :
    OrderedOn (fun a b => (order a b).then (second a b)) l where
  swap a ha b hb := by rw [first.swap a ha b hb, h.swap a ha b hb, Ordering.swap_then]
  trans a ha b hb c hc hab hbc := by
    cases hfirst : order a b with
    | gt => rw [hfirst] at hab; cases hab
    | eq =>
      rw [first.congr_left ha hb hc hfirst]
      cases hnext : order b c with
      | lt => rfl
      | gt => rw [hnext] at hbc; cases hbc
      | eq =>
        rw [hfirst] at hab
        rw [hnext] at hbc
        exact h.trans a ha b hb c hc hab hbc
    | lt =>
      have hnext : (order b c).isLE := by
        generalize order b c = o at hbc
        cases o <;> first | rfl | cases hbc
      have le := first.trans a ha b hb c hc (by rw [hfirst]; rfl) hnext
      cases hlast : order a c with
      | lt => rfl
      | gt => rw [hlast] at le; cases le
      | eq =>
        have back := first.congr_left ha hc hb hlast
        rw [first.swap b hb c hc, hfirst] at back
        generalize order b c = o at hnext back
        cases o with
        | lt | eq => cases back
        | gt => cases hnext

theorem reverse (h : OrderedOn order l) : OrderedOn (fun a b => (order a b).swap) l where
  swap a ha b hb := congrArg Ordering.swap (h.swap a ha b hb)
  trans a ha b hb c hc hab hbc := by
    rw [← h.swap a ha b hb] at hab
    rw [← h.swap b hb c hc] at hbc
    rw [← h.swap a ha c hc]
    exact h.trans c hc b hb a ha hbc hab

end OrderedOn

/-- `ys` is `xs` sorted: members of one rank, that of `a`, are the same in both, in the same
order. -/
structure StableSort (order : α → α → Ordering) (xs ys : List α) : Prop where
  mem : ∀ a ∈ ys, a ∈ xs
  sorted : ys.Pairwise fun a b => (order a b).isLE
  classes : ∀ a ∈ xs, ys.filter (fun b => (order a b).isEq) = xs.filter fun b => (order a b).isEq

/-- Sorted lists are the same if their classes of equal rank are. -/
theorem eq_of_classes {order : α → α → Ordering} {l : List α} (h : OrderedOn order l)
    {ys zs : List α} (hys : ∀ a ∈ ys, a ∈ l) (hzs : ∀ a ∈ zs, a ∈ l)
    (sorted : ys.Pairwise fun a b => (order a b).isLE)
    (sorted' : zs.Pairwise fun a b => (order a b).isLE)
    (classes : ∀ a ∈ l,
      ys.filter (fun b => (order a b).isEq) = zs.filter fun b => (order a b).isEq) : ys = zs := by
  have own {a : α} (ha : a ∈ l) {u : List α} (hu : a ∈ u) :
      a ∈ u.filter fun b => (order a b).isEq :=
    List.mem_filter.2 ⟨hu, by rw [h.refl ha]; rfl⟩
  induction ys generalizing zs with
  | nil =>
    refine (List.eq_nil_iff_forall_not_mem.2 fun z hz => ?_).symm
    have found := own (hzs z hz) hz
    rw [← classes z (hzs z hz)] at found
    cases found
  | cons y ys ih =>
    have hy := hys y List.mem_cons_self
    have found := own hy (u := y :: ys) List.mem_cons_self
    rw [classes y hy] at found
    cases zs with
    | nil => cases found
    | cons z zs =>
      have hz := hzs z List.mem_cons_self
      have first : (order y z).isLE := by
        have foundz := own hz (u := z :: zs) List.mem_cons_self
        rw [← classes z hz] at foundz
        rcases List.mem_cons.1 (List.mem_filter.1 foundz).1 with rfl | hz
        · rw [h.refl hy]; rfl
        · exact (List.pairwise_cons.1 sorted).1 z hz
      have first' : (order z y).isLE := by
        rcases List.mem_cons.1 (List.mem_filter.1 found).1 with rfl | hy'
        · rw [h.refl hy]; rfl
        · exact (List.pairwise_cons.1 sorted').1 y hy'
      have equal : order y z = .eq := by
        rw [h.swap y hy z hz] at first'
        generalize order y z = o at first first'
        cases o <;> simp_all [Ordering.swap, Ordering.isLE]
      have heads := classes y hy
      rw [List.filter_cons_of_pos (by rw [h.refl hy]; rfl),
        List.filter_cons_of_pos (by rw [equal]; rfl)] at heads
      obtain ⟨rfl, -⟩ := List.cons.inj heads
      congr 1
      refine ih (fun a ha => hys a (List.mem_cons_of_mem _ ha))
        (fun a ha => hzs a (List.mem_cons_of_mem _ ha)) (List.pairwise_cons.1 sorted).2
        (List.pairwise_cons.1 sorted').2 fun a ha => ?_
      have whole := classes a ha
      simp only [List.filter_cons] at whole
      split at whole
      · exact (List.cons.inj whole).2
      · exact whole

namespace StableSort

variable {order second : α → α → Ordering} {xs ys zs : List α}

theorem unique (h : OrderedOn order xs) (hys : StableSort order xs ys)
    (hzs : StableSort order xs zs) : ys = zs :=
  eq_of_classes h hys.mem hzs.mem hys.sorted hzs.sorted fun a ha =>
    (hys.classes a ha).trans (hzs.classes a ha).symm

theorem mem_iff (h : OrderedOn order xs) (hys : StableSort order xs ys) {a : α} :
    a ∈ ys ↔ a ∈ xs := by
  refine ⟨hys.mem a, fun ha => ?_⟩
  have found : a ∈ xs.filter fun b => (order a b).isEq :=
    List.mem_filter.2 ⟨ha, by rw [h.refl ha]; rfl⟩
  rw [← hys.classes a ha] at found
  exact (List.mem_filter.1 found).1

theorem congr {order' : α → α → Ordering} (hys : StableSort order xs ys)
    (same : ∀ a ∈ xs, ∀ b ∈ xs, order' a b = order a b) : StableSort order' xs ys where
  mem := hys.mem
  sorted := hys.sorted.imp_of_mem fun ha hb le => by
    rwa [same _ (hys.mem _ ha) _ (hys.mem _ hb)]
  classes a ha := by
    rw [List.filter_congr fun b hb => by rw [same a ha b (hys.mem b hb)], hys.classes a ha]
    exact List.filter_congr fun b hb => by rw [same a ha b hb]

/-- Dropping elements before sorting or after makes no difference. -/
theorem filter (hys : StableSort order xs ys) (p : α → Bool) :
    StableSort order (xs.filter p) (ys.filter p) where
  mem a ha := by
    obtain ⟨ha, hp⟩ := List.mem_filter.1 ha
    exact List.mem_filter.2 ⟨hys.mem a ha, hp⟩
  sorted := hys.sorted.filter p
  classes a ha := by
    rw [List.filter_comm, hys.classes a (List.mem_filter.1 ha).1, List.filter_comm]

/-- What elements are sent to is sorted by its own order, when that gives them their ranks. -/
theorem map {order : β → β → Ordering} {f : α → β}
    (hys : StableSort (fun a b => order (f a) (f b)) xs ys) :
    StableSort order (xs.map f) (ys.map f) where
  mem b hb := by
    obtain ⟨a, ha, rfl⟩ := List.mem_map.1 hb
    exact List.mem_map_of_mem (hys.mem a ha)
  sorted := List.pairwise_map.2 hys.sorted
  classes b hb := by
    obtain ⟨a, ha, rfl⟩ := List.mem_map.1 hb
    rw [List.filter_map, List.filter_map]
    exact congrArg _ (hys.classes a ha)

/-- Elements that become several of their own rank may be sorted before or after. -/
theorem flatMap {order : α → α → Ordering} {order' : β → β → Ordering} {f : α → List β}
    (h : OrderedOn order xs) (hys : StableSort order xs ys)
    (rank : ∀ a ∈ xs, ∀ a' ∈ xs, ∀ b ∈ f a, ∀ b' ∈ f a', order' b b' = order a a') :
    StableSort order' (xs.flatMap f) (ys.flatMap f) where
  mem b hb := by
    obtain ⟨a, ha, hb⟩ := List.mem_flatMap.1 hb
    exact List.mem_flatMap.2 ⟨a, hys.mem a ha, hb⟩
  sorted := by
    rw [List.pairwise_flatMap]
    constructor
    · intro a ha
      refine List.Pairwise.imp_of_mem (fun hb hb' _ => ?_)
        (List.pairwise_of_forall fun _ _ => trivial)
      rw [rank a (hys.mem a ha) a (hys.mem a ha) _ hb _ hb', h.refl (hys.mem a ha)]
      rfl
    · refine List.Pairwise.imp_of_mem (fun ha ha' le b hb b' hb' => ?_) hys.sorted
      rw [rank _ (hys.mem _ ha) _ (hys.mem _ ha') b hb b' hb']
      exact le
  classes b hb := by
    obtain ⟨a, ha, hb⟩ := List.mem_flatMap.1 hb
    have whole {us : List α} (hus : ∀ a ∈ us, a ∈ xs) :
        (us.flatMap f).filter (fun b' => (order' b b').isEq) =
          (us.filter fun a' => (order a a').isEq).flatMap f := by
      induction us with
      | nil => rfl
      | cons u us ih =>
        have hu := hus u List.mem_cons_self
        have ranks : ∀ b' ∈ f u, (order' b b').isEq = (order a u).isEq := fun b' hb' => by
          rw [rank a ha u hu b hb b' hb']
        rw [List.flatMap_cons, List.filter_append, List.filter_congr ranks,
          ih fun a ha => hus a (List.mem_cons_of_mem _ ha)]
        cases hab : (order a u).isEq <;> simp [hab]
    rw [whole hys.mem, whole fun _ h => h, hys.classes a ha]

/-- Sorting by the second order and then by the first is sorting by both. -/
theorem lex (h : OrderedOn order xs) (h' : OrderedOn second xs) (hys : StableSort second xs ys)
    (hzs : StableSort order ys zs) :
    StableSort (fun a b => (order a b).then (second a b)) xs zs where
  mem a ha := hys.mem a (hzs.mem a ha)
  sorted := by
    rw [List.pairwise_iff_forall_sublist]
    intro a b hab
    have ha : a ∈ ys := hzs.mem a (hab.subset (by simp))
    have le := List.pairwise_iff_forall_sublist.1 hzs.sorted hab
    cases hrank : order a b with
    | lt => rfl
    | gt => rw [hrank] at le; cases le
    | eq =>
      -- both are of one rank of the first order, within which `zs` is as `ys` was
      have within : [a, b].Sublist (zs.filter fun b => (order a b).isEq) := by
        have both := hab.filter fun b => (order a b).isEq
        rwa [List.filter_eq_self.2 (by simp [hrank, h.refl (hys.mem a ha)])] at both
      rw [hzs.classes a ha] at within
      exact List.pairwise_iff_forall_sublist.1 hys.sorted (within.trans List.filter_sublist)
  classes a ha := by
    have split (us : List α) : us.filter (fun b => ((order a b).then (second a b)).isEq) =
        (us.filter fun b => (order a b).isEq).filter fun b => (second a b).isEq := by
      rw [List.filter_filter]
      refine List.filter_congr fun b _ => ?_
      cases order a b <;> cases second a b <;> rfl
    rw [split, split, hzs.classes a ((hys.mem_iff h').2 ha), List.filter_comm,
      hys.classes a ha, List.filter_comm]

theorem refl (h : xs.Pairwise fun a b => (order a b).isLE) : StableSort order xs xs where
  mem _ ha := ha
  sorted := h
  classes _ _ := rfl

/-- Sorting by merging is stable for an order that is total on the whole type. -/
theorem mergeSort_of_total (h : ∀ l : List α, OrderedOn order l) (xs : List α) :
    StableSort order xs (xs.mergeSort fun a b => (order a b).isLE) := by
  have trans (a b c : α) : (order a b).isLE → (order b c).isLE → (order a c).isLE :=
    (h [a, b, c]).trans a (by simp) b (by simp) c (by simp)
  have total (a b : α) : (order a b).isLE || (order b a).isLE := by
    rw [(h [a, b]).swap a (by simp) b (by simp)]
    cases order a b <;> rfl
  refine ⟨fun a => List.mem_mergeSort.1, List.pairwise_mergeSort trans total _, fun a ha => ?_⟩
  -- a class is a sorted sublist, which sorting keeps, and sorting adds nothing to it
  have alike {b : α} (hb : b ∈ xs.filter fun b => (order a b).isEq) : order a b = .eq := by
    simpa using (List.mem_filter.1 hb).2
  have sorted : (xs.filter fun b => (order a b).isEq).Pairwise fun b c => (order b c).isLE := by
    refine List.pairwise_of_forall_mem_list fun b hb c hc => ?_
    have hbc := (h [a, b, c]).congr_left (c := c) (by simp) (by simp) (by simp) (alike hb)
    rw [← hbc, alike hc]
    rfl
  have kept := (List.sublist_mergeSort trans total sorted List.filter_sublist).filter
    fun b => (order a b).isEq
  rw [List.filter_filter, List.filter_congr fun _ _ => Bool.and_self _] at kept
  exact (kept.eq_of_length ((List.mergeSort_perm xs _).filter _).length_eq.symm).symm

/-- Sorting by merging is stable. -/
theorem mergeSort (h : OrderedOn order xs) :
    StableSort order xs (xs.mergeSort fun a b => (order a b).isLE) := by
  have members (l : List {a // a ∈ xs}) : OrderedOn (fun a b => order a.1 b.1) l :=
    OrderedOn.of_map (h.mono fun a ha => by
      obtain ⟨b, -, rfl⟩ := List.mem_map.1 ha
      exact b.2)
  have stable : StableSort order (xs.attach.map Subtype.val) _ :=
    .map (mergeSort_of_total members xs.attach)
  rwa [List.map_mergeSort (s := fun a b => (order a b).isLE) fun _ _ _ _ => rfl,
    List.attach_map_subtype_val] at stable

/-- Classes are the same also for the rank of an element that is not in the list. -/
theorem filter_eq {a : α} (h : OrderedOn order (a :: xs)) (hys : StableSort order xs ys) :
    ys.filter (fun b => (order a b).isEq) = xs.filter fun b => (order a b).isEq := by
  by_cases found : ∃ b ∈ xs, order a b = .eq
  · obtain ⟨b, hb, hab⟩ := found
    have alike {c : α} (hc : c ∈ xs) : (order a c).isEq = (order b c).isEq := by
      rw [h.congr_left (by simp) (by simp [hb]) (by simp [hc]) hab]
    rw [List.filter_congr fun c hc => alike hc, ← hys.classes b hb]
    exact List.filter_congr fun c hc => alike (hys.mem c hc)
  · have other {c : α} (hc : c ∈ xs) : ¬(order a c).isEq := by
      intro hac
      exact found ⟨c, hc, by simpa using hac⟩
    rw [List.filter_eq_nil_iff.2 fun c hc => other hc,
      List.filter_eq_nil_iff.2 fun c hc => other (hys.mem c hc)]

/-- A new last element goes behind all that it does not precede. -/
theorem insert_last {x : α} {lower upper : List α} (h : OrderedOn order (xs ++ [x]))
    (hys : StableSort order xs (lower ++ upper)) (below : ∀ a ∈ lower, (order a x).isLE)
    (above : ∀ b ∈ upper, order x b = .lt) :
    StableSort order (xs ++ [x]) (lower ++ x :: upper) where
  mem a ha := by
    have old := hys.mem a
    simp only [List.mem_append, List.mem_cons, List.not_mem_nil, or_false] at ha old ⊢
    tauto
  sorted := by
    obtain ⟨hlower, hupper, hboth⟩ := List.pairwise_append.1 hys.sorted
    have aboveLE (b : α) (hb : b ∈ upper) : (order x b).isLE := by rw [above b hb]; rfl
    refine List.pairwise_append.2 ⟨hlower, List.pairwise_cons.2 ⟨aboveLE, hupper⟩, ?_⟩
    intro a ha b hb
    rcases List.mem_cons.1 hb with rfl | hb
    · exact below a ha
    · exact hboth a ha b hb
  classes a ha := by
    have before : (lower ++ upper).filter (fun b => (order a b).isEq) =
        xs.filter fun b => (order a b).isEq := by
      refine hys.filter_eq (h.mono fun b hb => ?_)
      rcases List.mem_cons.1 hb with rfl | hb
      · exact ha
      · exact List.mem_append_left _ hb
    rw [List.filter_append, List.filter_append xs, ← before, List.filter_append]
    cases hax : order a x with
    | lt | gt => simp [hax]
    | eq =>
      -- of what stands above the new element nothing has its rank
      have none : upper.filter (fun b => (order a b).isEq) = [] := by
        refine List.filter_eq_nil_iff.2 fun b hb => ?_
        have hb' := List.mem_append_left [x] (hys.mem b (List.mem_append_right _ hb))
        rw [h.congr_left ha (by simp) hb' hax, above b hb]
        simp
      simp [hax, none]

end StableSort

/-- Of the elements with a key the first one. -/
def keepFirst [DecidableEq β] (key : α → β) : List α → List α
  | [] => []
  | a :: l => a :: (keepFirst key l).filter fun b => key b ≠ key a

section KeepFirst

variable [DecidableEq β] {key : α → β} {l : List α}

theorem keepFirst_sublist : (l : List α) → (keepFirst key l).Sublist l
  | [] => .slnil
  | a :: l => (List.filter_sublist.trans (keepFirst_sublist l)).cons_cons a

theorem mem_of_mem_keepFirst {a : α} (h : a ∈ keepFirst key l) : a ∈ l :=
  (keepFirst_sublist l).subset h

/-- Each key is kept once at least. -/
theorem exists_mem_keepFirst {a : α} (h : a ∈ l) : ∃ b ∈ keepFirst key l, key b = key a := by
  induction l with
  | nil => cases h
  | cons c l ih =>
    by_cases same : key c = key a
    · exact ⟨c, List.mem_cons_self, same⟩
    · obtain ⟨b, hb, hba⟩ := ih ((List.mem_cons.1 h).resolve_left fun hac => same (by rw [hac]))
      refine ⟨b, List.mem_cons_of_mem _ (List.mem_filter.2 ⟨hb, ?_⟩), hba⟩
      simpa [hba] using Ne.symm same

/-- What depends on the key alone may be asked before duplicates are dropped or after. -/
theorem keepFirst_filter {p : α → Bool} (h : ∀ a ∈ l, ∀ b ∈ l, key a = key b → p a = p b) :
    keepFirst key (l.filter p) = (keepFirst key l).filter p := by
  induction l with
  | nil => rfl
  | cons a l ih =>
    have tail := ih fun b hb c hc => h b (List.mem_cons_of_mem _ hb) c (List.mem_cons_of_mem _ hc)
    rw [keepFirst]
    cases hp : p a with
    | true =>
      rw [List.filter_cons_of_pos hp, List.filter_cons_of_pos hp, keepFirst, tail, List.filter_comm]
    | false =>
      rw [List.filter_cons_of_neg (by simp [hp]), List.filter_cons_of_neg (by simp [hp]), tail,
        List.filter_filter]
      refine List.filter_congr fun b hb => ?_
      have hb := mem_of_mem_keepFirst hb
      by_cases same : key b = key a
      · simp [h b (List.mem_cons_of_mem _ hb) a List.mem_cons_self same, hp]
      · simp [same]

/-- Only which keys are the same matters. -/
theorem keepFirst_congr [DecidableEq γ] {key' : α → γ}
    (h : ∀ a ∈ l, ∀ b ∈ l, key a = key b ↔ key' a = key' b) :
    keepFirst key l = keepFirst key' l := by
  induction l with
  | nil => rfl
  | cons a l ih =>
    rw [keepFirst, keepFirst, ih fun b hb c hc =>
      h b (List.mem_cons_of_mem _ hb) c (List.mem_cons_of_mem _ hc)]
    congr 1
    refine List.filter_congr fun b hb => ?_
    have hb := mem_of_mem_keepFirst hb
    simp [h b (List.mem_cons_of_mem _ hb) a List.mem_cons_self]

theorem keepFirst_map {δ : Type} {f : δ → α} (l : List δ) :
    keepFirst key (l.map f) = (keepFirst (key ∘ f) l).map f := by
  induction l with
  | nil => rfl
  | cons a l ih =>
    rw [List.map_cons, keepFirst, keepFirst, ih, List.filter_map, List.map_cons]
    rfl

/-- First occurrences occur once. -/
theorem keepFirst_keepFirst (l : List α) : keepFirst key (keepFirst key l) = keepFirst key l := by
  induction l with
  | nil => rfl
  | cons a l ih =>
    have others : keepFirst key ((keepFirst key l).filter fun b => key b ≠ key a) =
        (keepFirst key l).filter fun b => key b ≠ key a := by
      rw [keepFirst_filter (fun b _ c _ same => by simp [same]), ih]
    rw [keepFirst, keepFirst, others, List.filter_filter]
    simp

theorem mem_keepFirst [DecidableEq α] {a : α} : a ∈ keepFirst id l ↔ a ∈ l := by
  refine ⟨mem_of_mem_keepFirst, fun h => ?_⟩
  obtain ⟨b, hb, rfl⟩ : ∃ b ∈ keepFirst id l, id b = id a := exists_mem_keepFirst h
  exact hb

theorem nodup_keepFirst [DecidableEq α] : (l : List α) → (keepFirst id l).Nodup
  | [] => .nil
  | _ :: l => List.nodup_cons.2 ⟨by simp, (nodup_keepFirst l).filter _⟩

/-- First occurrences are sorted by sorting before or after. -/
theorem StableSort.keepFirst [DecidableEq α] {order : α → α → Ordering} {xs ys : List α}
    (hys : StableSort order xs ys) :
    StableSort order (keepFirst id xs) (keepFirst id ys) where
  mem a ha := by
    obtain ⟨b, hb, rfl⟩ : ∃ b ∈ EntityQuery.keepFirst id xs, id b = id a :=
      exists_mem_keepFirst (hys.mem a (mem_of_mem_keepFirst ha))
    exact hb
  sorted := hys.sorted.sublist (keepFirst_sublist ys)
  classes a ha := by
    have rank (us : List α) : EntityQuery.keepFirst id (us.filter fun b => (order a b).isEq) =
        (EntityQuery.keepFirst id us).filter fun b => (order a b).isEq :=
      keepFirst_filter fun _ _ _ _ same => congrArg (fun b => (order a b).isEq) same
    rw [← rank, ← rank, hys.classes a (mem_of_mem_keepFirst ha)]

end KeepFirst

/-- What is relied on where libraries sort: no element is lost or made, and where the order is one
the sort is stable. -/
class Libraries.SortsStably [Libraries] : Prop where
  perm {α : Type} {order : α → α → Ordering} {l : List α} : (Libraries.sort order l).Perm l
  stable {α : Type} {order : α → α → Ordering} {l : List α} (h : OrderedOn order l) :
    StableSort order l (Libraries.sort order l)

section Sorting

variable [Libraries] [Libraries.SortsStably] {direction : Direction}

theorem Direction.sort_perm {keyed : List (Value × Value)} :
    (direction.sort keyed).Perm (keyed.map Prod.snd) :=
  Libraries.SortsStably.perm.map Prod.snd

/-- A pipeline sorts stably by the keys. -/
theorem Direction.sort_stable {keyed : List (Value × Value)}
    (h : OrderedOn direction.orderKeys keyed) :
    ∃ sorted, direction.sort keyed = sorted.map Prod.snd ∧
      StableSort direction.orderKeys keyed sorted :=
  ⟨_, rfl, Libraries.SortsStably.stable h⟩

/-- Elements sorted by the keys that a function gives for them are sorted by the function. -/
theorem Direction.sort_map_stable {key : Value → Value} {l : List Value}
    (h : OrderedOn direction.order (l.map key)) :
    StableSort (fun v w => direction.order (key v) (key w)) l
      (direction.sort (l.map fun v => (key v, v))) := by
  have ranks : OrderedOn direction.orderKeys (l.map fun v => (key v, v)) := .map h.of_map
  obtain ⟨sorted, heq, stable⟩ := direction.sort_stable ranks
  have merged := StableSort.mergeSort h.of_map
  have keyed : StableSort direction.orderKeys (l.map fun v => (key v, v))
      ((l.mergeSort fun v w => (direction.order (key v) (key w)).isLE).map fun v => (key v, v)) :=
    .map merged
  rw [heq, stable.unique ranks keyed, List.map_map]
  simpa [Function.comp_def] using merged

end Sorting

end EntityQuery
