import EntityQuery.Proofs.Expr.Value
import EntityQuery.Proofs.Value.Order
import EntityQuery.Value.Aggregation
import Mathlib.Algebra.BigOperators.Group.Multiset.Basic
import Mathlib.Algebra.Ring.Int.Defs
import Mathlib.Data.Multiset.Dedup

/-! Aggregates of values in no order, as a data engine takes them, and the fold over a list, which
answers alike where sums fit and where values that can be compared stand in a chain. -/
namespace EntityQuery

/-- Comparisons of these values never contradict each other. -/
structure Chained (vs : List Value) : Prop where
  same : ∀ a ∈ vs, ∀ b ∈ vs, Value.compare a b = some .eq → a = b
  swap : ∀ a ∈ vs, ∀ b ∈ vs, Value.compare b a = (Value.compare a b).map .swap
  trans : ∀ a ∈ vs, ∀ b ∈ vs, ∀ c ∈ vs,
    Value.compare a b = some .lt → Value.compare b c = some .lt → Value.compare a c = some .lt

theorem chained_of_floatFree {vs : List Value} (free : ∀ v ∈ vs, v.floatFree) : Chained vs where
  same a ha b hb := Value.eq_of_compare a b (free a ha) (free b hb)
  swap a _ b _ := Value.compare_swap a b
  trans a ha b hb c hc hab hbc :=
    Value.compare_then (Value.unblurred_of_floatFree free) a b c (Value.numbers_subset_items ha)
      (Value.numbers_subset_items hb) (Value.numbers_subset_items hc) hab rfl hbc rfl

theorem Chained.mono {vs ws : List Value} (h : Chained vs) (sub : ∀ w ∈ ws, w ∈ vs) :
    Chained ws where
  same a ha b hb := h.same a (sub a ha) b (sub b hb)
  swap a ha b hb := h.swap a (sub a ha) b (sub b hb)
  trans a ha b hb c hc := h.trans a (sub a ha) b (sub b hb) c (sub c hc)

/-- The number that an integer is; nothing else counts. -/
def Value.toInt : Value → Int
  | .int n => n.toInt
  | _ => 0

namespace Aggregate

/-- How the value that an extreme is stands to those it beats. -/
def toward (kind : Aggregate) : Ordering := if kind = .min then .lt else .gt

/-- Answers of a data engine on values of which none is null. Of no values there is nothing but
their count. -/
inductive Answers : Aggregate → Multiset Value → Value → Prop
  | count (vs : Multiset Value) : Answers .count vs (.int (.ofNat vs.card))
  | nothing {kind : Aggregate} {vs : Multiset Value} (other : kind ≠ .count) (none : vs = 0) :
    Answers kind vs .null
  | sum {vs : Multiset Value} {n : Int64} (any : vs ≠ 0) (ints : ∀ v ∈ vs, ∃ k, v = .int k)
    (exact : n.toInt = (vs.map Value.toInt).sum) : Answers .sum vs (.int n)
  | extreme {kind : Aggregate} {vs : Multiset Value} {v : Value} (either : kind = .min ∨ kind = .max)
    (mem : v ∈ vs) (unbeaten : ∀ w ∈ vs, Value.compare w v ≠ some kind.toward) :
    Answers kind vs v

open Classical in
/-- Values, each once if they must be distinct. -/
noncomputable def once (distinct : Bool) (vs : Multiset Value) : Multiset Value :=
  if distinct then vs.dedup else vs

/-- The values of a column that an aggregate regards: not the nulls. -/
noncomputable def regarded (distinct : Bool) (column : Multiset Value) : Multiset Value :=
  (once distinct column).filter fun v => !v.isNull

/-- Whether integers have a sum that is in range. -/
def Fits (values : List Value) : Prop := ∃ n : Int64, n.toInt = (values.map Value.toInt).sum

variable {kind : Aggregate} {v w : Value} {vs : List Value}

/-! ### Sums -/

theorem add_ok {t t' : Total} (h : t.add kind v = .ok t') (free : v.floatFree) :
    ∃ n, v = .int n ∧ t' = { t with
      count := t.count + 1, ints := t.ints + n, floats := t.floats + Number.ofInt64 n } := by
  cases v with
  | int n => exact ⟨n, rfl, (Except.ok.inj h).symm⟩
  | float x => cases free
  | _ => cases h

/-- What is summed up without floats are integers, and the sum wraps around at most. -/
theorem total_ok {t t' : Total} (h : vs.foldlM (Total.add kind) t = .ok t')
    (free : ∀ v ∈ vs, v.floatFree) :
    (∀ v ∈ vs, ∃ n, v = .int n) ∧ t'.count = t.count + vs.length ∧ t'.allInts = t.allInts ∧
      t'.ints = t.ints + .ofInt (vs.map Value.toInt).sum := by
  induction vs generalizing t with
  | nil =>
    obtain rfl : t = t' := Except.ok.inj h
    exact ⟨by simp, rfl, rfl, (Int64.add_zero t.ints).symm⟩
  | cons v vs ih =>
    obtain ⟨first, others⟩ := List.forall_mem_cons.1 free
    rw [List.foldlM_cons] at h
    obtain ⟨next, hnext, h⟩ := bind_ok_iff.1 h
    obtain ⟨n, rfl, rfl⟩ := add_ok hnext first
    obtain ⟨ints, count, all, total⟩ := ih h others
    refine ⟨List.forall_mem_cons.2 ⟨⟨n, rfl⟩, ints⟩, ?_, all, ?_⟩
    · rw [count, List.length_cons, Nat.add_assoc, Nat.add_comm 1]
    · rw [total, List.map_cons, List.sum_cons, Int64.ofInt_add, ← Int64.add_assoc]
      exact congrArg (t.ints + · + _) (Int64.ofInt_toInt n).symm

/-- Without floats a fold that succeeds sums up exactly, if the sum is in range. -/
theorem answers_numeric (h : numeric .sum vs = .ok w) (free : ∀ v ∈ vs, v.floatFree)
    (fits : Fits vs) : Answers .sum vs v ↔ v = w := by
  unfold numeric at h
  cases total : vs.foldlM (Total.add .sum) {} with
  | error e => rw [total] at h; cases h
  | ok t =>
  rw [total] at h
  obtain rfl : t.result .sum = w := Except.ok.inj h
  obtain ⟨ints, count, all, sum⟩ := total_ok total free
  obtain ⟨n, exact⟩ := fits
  cases vs with
  | nil =>
    have result : t.result .sum = .null := by simp [Total.result, count]
    rw [result]
    refine ⟨fun answers => ?_, fun null => null ▸ .nothing (by simp) rfl⟩
    cases answers with
    | nothing => rfl
    | sum any => exact absurd rfl any
    | extreme either => simp at either
  | cons first rest =>
    have result : t.result .sum = .int n := by
      have sum : t.ints = n := by
        rw [sum, ← exact, Int64.ofInt_toInt]
        exact Int64.zero_add n
      simp [Total.result, count, all, sum]
    rw [result]
    constructor
    · intro answers
      cases answers with
      | nothing _ none => simp at none
      | sum _ _ exact' =>
        have same := exact'.trans exact.symm
        rw [Int64.toInt_inj.1 same]
      | extreme either => simp at either
    · rintro rfl
      exact .sum (by simp) ints exact

/-! ### Extremes -/

theorem trans_toward (h : Chained vs) {a b c : Value} (ha : a ∈ vs) (hb : b ∈ vs) (hc : c ∈ vs)
    (hab : Value.compare a b = some kind.toward) (hbc : Value.compare b c = some kind.toward) :
    Value.compare a c = some kind.toward := by
  unfold toward at *
  split at hab
  · next least =>
    rw [if_pos least] at hbc ⊢
    exact h.trans a ha b hb c hc hab hbc
  · next greatest =>
    rw [if_neg greatest] at hbc ⊢
    have hba : Value.compare b a = some .lt := by
      rw [h.swap a ha b hb, hab]
      rfl
    have hcb : Value.compare c b = some .lt := by
      rw [h.swap b hb c hc, hbc]
      rfl
    rw [h.swap c hc a ha, h.trans c hc b hb a ha hcb hba]
    rfl

/-- Of two values not both beat the other. -/
theorem not_toward (h : Chained vs) {a b : Value} (ha : a ∈ vs) (hb : b ∈ vs)
    (hab : Value.compare a b = some kind.toward) : Value.compare b a ≠ some kind.toward := by
  rw [h.swap a ha b hb, hab]
  unfold toward
  split <;> simp

/-- The better of two values is one of them and beats the other. -/
theorem better_ok {best b : Value} (h : better kind best v = .ok b) (chained : Chained [best, v]) :
    (b = best ∨ b = v) ∧ ∀ u ∈ [best, v], u = b ∨ Value.compare b u = some kind.toward := by
  unfold better at h
  split at h
  · cases h
  next o ho =>
  obtain rfl : (if o == kind.toward then v else best) = b := Except.ok.inj h
  by_cases beats : o = kind.toward
  · subst beats
    simp [ho]
  · have beaten : v = best ∨ Value.compare best v = some kind.toward := by
      by_cases equal : o = .eq
      · exact .inl (chained.same v (by simp) best (by simp) (ho.trans (congrArg some equal)))
      · right
        rw [chained.swap v (by simp) best (by simp), ho]
        unfold toward at beats ⊢
        split at beats <;> cases o <;> simp_all
    simpa [beats] using beaten

/-- The best value is among the values and beats all others. -/
theorem best_ok {best : Value} (h : vs.foldlM (better kind) best = .ok w)
    (chained : Chained (best :: vs)) :
    w ∈ best :: vs ∧ ∀ u ∈ best :: vs, u = w ∨ Value.compare w u = some kind.toward := by
  induction vs generalizing best with
  | nil =>
    obtain rfl : best = w := Except.ok.inj h
    simp
  | cons v vs ih =>
    rw [List.foldlM_cons] at h
    obtain ⟨b, hb, h⟩ := bind_ok_iff.1 h
    obtain ⟨either, first⟩ := better_ok hb (chained.mono (by simp))
    have among : ∀ u ∈ b :: vs, u ∈ best :: v :: vs := by
      intro u hu
      rcases List.mem_cons.1 hu with rfl | hu
      · rcases either with rfl | rfl <;> simp
      · simp [hu]
    obtain ⟨mem, rest⟩ := ih h (chained.mono among)
    refine ⟨among w mem, fun u hu => ?_⟩
    have cases : u ∈ [best, v] ∨ u ∈ vs := by
      simpa [or_assoc] using hu
    rcases cases with early | late
    · -- the winner is the better of the first two or beats it
      rcases first u early with rfl | loses
      · exact rest u List.mem_cons_self
      · rcases rest b List.mem_cons_self with rfl | beaten
        · exact .inr loses
        · exact .inr (trans_toward chained (among w mem) (among b List.mem_cons_self) hu beaten
            loses)
    · exact rest u (List.mem_cons_of_mem _ late)

theorem answers_extreme (either : kind = .min ∨ kind = .max) (h : extreme kind vs = .ok w)
    (chained : Chained vs) : Answers kind vs v ↔ v = w := by
  cases vs with
  | nil =>
    obtain rfl : Value.null = w := Except.ok.inj h
    refine ⟨fun answers => ?_, ?_⟩
    · cases answers with
      | count => simp at either
      | nothing => rfl
      | sum any => exact absurd rfl any
      | extreme _ mem => cases mem
    · rintro rfl
      exact .nothing (by rintro rfl; simp at either) rfl
  | cons first vs =>
    obtain ⟨mem, beats⟩ := best_ok h chained
    constructor
    · intro answers
      cases answers with
      | count => simp at either
      | nothing _ none => simp at none
      | sum => simp at either
      | extreme _ mem' unbeaten => exact (beats v mem').resolve_right (unbeaten w mem)
    · rintro rfl
      refine .extreme either mem fun u hu beaten => ?_
      rcases beats u hu with rfl | beats
      · exact not_toward chained hu hu beaten beaten
      · exact not_toward chained hu mem beaten beats

theorem sum_present (values : List Value) :
    ((values.filter fun v => !v.isNull).map Value.toInt).sum = (values.map Value.toInt).sum := by
  induction values with
  | nil => rfl
  | cons v values ih =>
    rw [List.map_cons, List.sum_cons, ← ih]
    cases v <;> simp [Value.isNull, Value.toInt]

/-- Where a fold that is no count succeeds, a data engine gives its result and nothing else. -/
theorem answers_fold {values : List Value} (h : kind.fold values = .ok w)
    (either : kind = .sum ∧ (∀ v ∈ values, v.floatFree) ∧ Fits values ∨
      (kind = .min ∨ kind = .max) ∧ Chained values) :
    Answers kind (regarded false values) v ↔ v = w := by
  have present : ∀ v ∈ values.filter (fun v => !v.isNull), v ∈ values := fun v hv =>
    (List.mem_filter.1 hv).1
  have regarded : regarded false (values : Multiset Value) =
      (values.filter fun v => !v.isNull : List Value) := by
    simp [Aggregate.regarded, once]
  rw [regarded]
  rcases either with ⟨rfl, free, fits⟩ | ⟨least | greatest, chained⟩
  · refine answers_numeric h (fun v hv => free v (present v hv)) ?_
    rwa [Fits, sum_present]
  · subst least
    exact answers_extreme (.inl rfl) h (chained.mono present)
  · subst greatest
    exact answers_extreme (.inr rfl) h (chained.mono present)

/-! ### Columns -/

open Classical in
theorem once_coe (distinct : Bool) (l : List Value) :
    once distinct l = (if distinct then keepFirst id l else l : List Value) := by
  unfold once
  split
  · refine (Multiset.Nodup.ext (Multiset.nodup_dedup _) ?_).2 fun v => ?_
    · exact nodup_keepFirst l
    · rw [Multiset.mem_dedup, Multiset.mem_coe, Multiset.mem_coe, mem_keepFirst]
  · rfl

theorem mem_once {distinct : Bool} {vs : Multiset Value} : v ∈ once distinct vs ↔ v ∈ vs := by
  unfold once
  split <;> simp

/-- A function that keeps apart the values of a column may be applied before or after duplicates
are dropped. -/
theorem once_map {α : Type} {distinct : Bool} {s : Multiset α} {x : α → Value} {f : Value → Value}
    (apart : distinct → ∀ a ∈ s, ∀ b ∈ s, f (x a) = f (x b) → x a = x b) :
    once distinct (s.map fun a => f (x a)) = (once distinct (s.map x)).map f := by
  classical
  unfold once
  split
  · next h =>
    refine (Multiset.Nodup.ext (Multiset.nodup_dedup _) ?_).2 fun w => ?_
    · refine Multiset.Nodup.map_on (fun v hv v' hv' same => ?_) (Multiset.nodup_dedup _)
      obtain ⟨a, ha, rfl⟩ := Multiset.mem_map.1 (Multiset.mem_dedup.1 hv)
      obtain ⟨b, hb, rfl⟩ := Multiset.mem_map.1 (Multiset.mem_dedup.1 hv')
      exact apart h a ha b hb same
    · simp
  · exact (Multiset.map_map f x s).symm

theorem card_once_map {α : Type} {distinct : Bool} {s : Multiset α} {x : α → Value}
    {f : Value → Value} (injective : Function.Injective f) :
    (once distinct (s.map fun a => f (x a))).card = (once distinct (s.map x)).card := by
  rw [once_map fun _ _ _ _ _ same => injective same, Multiset.card_map]

/-! ### Counts -/

theorem answers_count {vs : Multiset Value} : Answers .count vs v ↔ v = .int (.ofNat vs.card) := by
  refine ⟨fun answers => ?_, fun same => same ▸ .count vs⟩
  cases answers with
  | count => rfl
  | nothing other => exact absurd rfl other
  | extreme either => simp at either

theorem regarded_of_present {column : Multiset Value} (present : ∀ v ∈ column, v.isNull = false) :
    regarded false column = column := by
  simpa [regarded, once] using present

open Classical in
/-- Of distinct values a null is one that is not regarded. -/
theorem card_regarded (column : Multiset Value) :
    (regarded true column).card + (if .null ∈ column then 1 else 0) = (once true column).card := by
  have nulls : column.dedup.filter (fun v => ¬(!v.isNull) = true) =
      .replicate (column.dedup.count .null) .null := by
    refine (Multiset.filter_congr fun v _ => ?_).trans (Multiset.filter_eq' _ _)
    cases v <;> simp [Value.isNull]
  have parts := congrArg Multiset.card (column.dedup.filter_add_not fun v => (!v.isNull) = true)
  rw [Multiset.card_add, nulls, Multiset.card_replicate, Multiset.count_dedup] at parts
  simpa [regarded, once] using parts

end Aggregate
end EntityQuery
