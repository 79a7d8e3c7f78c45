import EntityQuery.Lambda.Recording
import Mathlib.Data.List.Basic
import Mathlib.Data.List.Induction
import Mathlib.Logic.Relation

/-! Scoping of traces. What a lambda records reads only operations recorded before. So the
operations that the result depends on are found in one pass backwards, and the calls among the
others stand in the order of recording. -/
namespace EntityQuery

theorem Op.external?_eq_some {op : Op} {f : ExternalFunction} (h : op.external? = some f) :
    ∃ arguments, op = .call (.external f) arguments := by
  unfold external? at h
  split at h
  · obtain rfl := Option.some.inj h
    exact ⟨_, rfl⟩
  · cases h

/-- Each operation reads only earlier ones. -/
def ReadsEarlier (ops : List Op) : Prop :=
  ∀ (id : Nat) (op : Op), ops[id]? = some op → ∀ i ∈ op.inputs, i < id

theorem ReadsEarlier.concat {ops : List Op} {op : Op} (h : ReadsEarlier ops)
    (inputs : ∀ i ∈ op.inputs, i < ops.length) : ReadsEarlier (ops ++ [op]) := by
  intro id op' recorded
  rcases Nat.lt_trichotomy id ops.length with before | rfl | behind
  · exact h id op' (by rwa [List.getElem?_append_left before] at recorded)
  · rw [List.getElem?_concat_length] at recorded
    exact Option.some.inj recorded ▸ inputs
  · rw [List.getElem?_eq_none (by rw [List.length_append]; exact behind)] at recorded
    cases recorded

theorem ReadsEarlier.of_concat {ops : List Op} {op : Op} (h : ReadsEarlier (ops ++ [op])) :
    ReadsEarlier ops ∧ ∀ i ∈ op.inputs, i < ops.length := by
  refine ⟨fun id op' recorded => h id op' ?_, h ops.length op List.getElem?_concat_length⟩
  rwa [List.getElem?_append_left (List.getElem?_eq_some_iff.1 recorded).1]

/-! ### What a lambda records -/

/-- A handle is one of the first `n` operations. -/
def Operand.Within (n : Nat) : Operand → Prop
  | handle id => id < n
  | _ => True

theorem Operand.Within.mono {n m : Nat} {o : Operand} (h : o.Within n) (le : n ≤ m) :
    o.Within m := by
  cases o with
  | handle id => exact Nat.lt_of_lt_of_le h le
  | _ => trivial

def Scope.Within (n : Nat) (scope : Scope) : Prop :=
  scope.arity ≤ n ∧ ∀ o ∈ scope.shared, o.Within n

theorem Scope.Within.mono {n m : Nat} {scope : Scope} (h : scope.Within n) (le : n ≤ m) :
    scope.Within m :=
  ⟨Nat.le_trans h.1 le, fun o ho => (h.2 o ho).mono le⟩

namespace Recorder

variable {α β : Type} {n : Nat} {x : Recorder α} {f : α → Recorder β} {Q Q' : Nat → α → Prop}
  {R : Nat → β → Prop}

/-- After `n` operations or more, adds only operations that read earlier ones; what it gives is
judged with the number of operations then. -/
def Scopes (n : Nat) (x : Recorder α) (Q : Nat → α → Prop) : Prop :=
  ∀ r : Recording, n ≤ r.ops.length → ReadsEarlier r.ops →
    ReadsEarlier (x.run r).2.ops ∧ n ≤ (x.run r).2.ops.length ∧
      Q (x.run r).2.ops.length (x.run r).1

theorem scopes_pure {a : α} (h : ∀ m, n ≤ m → Q m a) : Scopes n (pure a) Q :=
  fun _ long inOrder => ⟨inOrder, long, h _ long⟩

theorem Scopes.bind (first : Scopes n x Q) (next : ∀ a m, n ≤ m → Q m a → Scopes m (f a) R) :
    Scopes n (x >>= f) R := by
  intro r long inOrder
  obtain ⟨inOrder', long', result⟩ := first r long inOrder
  obtain ⟨inOrder'', long'', result'⟩ := next _ _ long' result _ (Nat.le_refl _) inOrder'
  exact ⟨inOrder'', Nat.le_trans long' long'', result'⟩

theorem Scopes.mono (h : Scopes n x Q) (weaker : ∀ m a, n ≤ m → Q m a → Q' m a) :
    Scopes n x Q' := by
  intro r long inOrder
  obtain ⟨inOrder', long', result⟩ := h r long inOrder
  exact ⟨inOrder', long', weaker _ _ long' result⟩

theorem Scopes.discard (h : Scopes n x Q) :
    Scopes n (Functor.discard x) fun m _ => ∃ a, Q m a := by
  intro r long inOrder
  obtain ⟨inOrder', long', result⟩ := h r long inOrder
  exact ⟨inOrder', long', _, result⟩

theorem scopes_push {op : Op} (inputs : ∀ i ∈ op.inputs, i < n) :
    Scopes n (push op) fun m id => n ≤ id ∧ id < m := by
  intro r long inOrder
  have added : (r.ops ++ [op]).length = r.ops.length + 1 := List.length_append
  refine ⟨inOrder.concat fun i hi => Nat.lt_of_lt_of_le (inputs i hi) long, ?_, long, ?_⟩
  · exact Nat.le_trans long (added ▸ Nat.le_succ _)
  · exact added ▸ Nat.lt_succ_self _

theorem scopes_record {op : Op} (inputs : ∀ i ∈ op.inputs, i < n) :
    Scopes n (record op) fun m o => o.Within m :=
  (scopes_push inputs).bind fun _ _ _ h => scopes_pure fun _ le => Nat.lt_of_lt_of_le h.2 le

theorem scopes_lift {operand : Operand} (within : operand.Within n) :
    Scopes n (lift operand) fun m id => id < m := by
  have pushed {op : Op} (inputs : op.inputs = []) {n : Nat} :
      Scopes n (push op) fun m id => id < m :=
    (scopes_push (by simp [inputs])).mono fun _ _ _ h => h.2
  cases operand with
  | handle id => exact scopes_pure fun _ le => Nat.lt_of_lt_of_le within le
  | foreign =>
    have leak : Scopes n (modify fun r : Recording => { r with leaked := true }) fun _ _ => True :=
      fun _ long inOrder => ⟨inOrder, long, trivial⟩
    exact leak.bind fun _ _ _ _ => pushed rfl
  | const value => exact pushed rfl
  | captured name value => exact pushed rfl

theorem scopes_onHandle {k : Nat → Recorder Operand} {base : Operand} (within : base.Within n)
    (next : ∀ id m, n ≤ m → id < m → Scopes m (k id) fun m o => o.Within m) :
    Scopes n (onHandle base k) fun m o => o.Within m := by
  have own := (scopes_lift within).bind next
  cases base with
  | foreign => exact scopes_pure fun _ _ => trivial
  | handle id => exact own
  | const value => exact own
  | captured name value => exact own

theorem scopes_mapM_lift {operands : List Operand} (within : ∀ o ∈ operands, o.Within n) :
    Scopes n (operands.mapM lift) fun m ids => ∀ id ∈ ids, id < m := by
  induction operands generalizing n with
  | nil => exact scopes_pure fun _ _ => List.forall_mem_nil _
  | cons operand operands ih =>
    rw [List.forall_mem_cons] at within
    rw [List.mapM_cons]
    refine (scopes_lift within.1).bind fun id m le hid => ?_
    refine (ih fun o ho => (within.2 o ho).mono le).bind fun ids m' le' hids => ?_
    refine scopes_pure fun m'' le'' => List.forall_mem_cons.2 ⟨?_, fun i hi => ?_⟩
    · exact Nat.lt_of_lt_of_le hid (Nat.le_trans le' le'')
    · exact Nat.lt_of_lt_of_le (hids i hi) le''

end Recorder

namespace Term

open Recorder

mutual

theorem scopes_record {scope : Scope} {n : Nat} (within : scope.Within n) :
    (t : Term) → Scopes n (t.record scope) fun m o => o.Within m
  | param index => by
    refine scopes_pure fun m le => ?_
    split
    · next bound => exact Nat.lt_of_lt_of_le bound (Nat.le_trans within.1 le)
    · trivial
  | shared index => by
    refine scopes_pure fun m le => ?_
    cases found : scope.shared[index]? with
    | none => trivial
    | some o => exact (within.2 o (List.mem_of_getElem? found)).mono le
  | const _ | captured _ _ | foreign => scopes_pure fun _ _ => trivial
  | field base name | element base name | streamOf base name | unary name base | apply name base
  | stream base =>
    (scopes_record within base).bind fun _ _ _ hb => scopes_onHandle hb fun _ _ _ hid =>
      Recorder.scopes_record (List.forall_mem_singleton.2 hid)
  | tuple first rest | call _ first rest =>
    (scopes_record within first).bind fun _ _ le ha =>
      (scopes_recordAll (within.mono le) rest).bind fun _ _ le' hothers =>
        scopes_onHandle (ha.mono le') fun _ _ le'' hid =>
          (scopes_mapM_lift fun o ho => (hothers o ho).mono le'').bind fun _ _ le hids =>
            Recorder.scopes_record (List.forall_mem_cons.2 ⟨Nat.lt_of_lt_of_le hid le, hids⟩)
  | branch condition whenTrue whenFalse =>
    (scopes_record within condition).bind fun _ _ le hc =>
      (scopes_record (within.mono le) whenTrue).bind fun _ _ le' ha =>
        (scopes_record ((within.mono le).mono le') whenFalse).bind fun _ _ le'' hb =>
          scopes_onHandle ((hc.mono le').mono le'') fun _ _ le₃ hid =>
            (scopes_lift ((ha.mono le'').mono le₃)).bind fun _ _ le₄ hid' =>
              (scopes_lift ((hb.mono le₃).mono le₄)).bind fun _ _ le₅ hid'' =>
                Recorder.scopes_record (List.forall_mem_cons.2
                  ⟨Nat.lt_of_lt_of_le hid (Nat.le_trans le₄ le₅), List.forall_mem_cons.2
                    ⟨Nat.lt_of_lt_of_le hid' le₅, List.forall_mem_singleton.2 hid''⟩⟩)
  | binary op left right =>
    (scopes_record within left).bind fun _ _ le ha =>
      (scopes_record (within.mono le) right).bind fun _ _ le' hb =>
        scopes_onHandle (ha.mono le') fun _ _ le'' hid =>
          (scopes_lift (hb.mono le'')).bind fun _ _ le hid' =>
            Recorder.scopes_record (List.forall_mem_cons.2
              ⟨Nat.lt_of_lt_of_le hid le, List.forall_mem_singleton.2 hid'⟩)

theorem scopes_recordAll {scope : Scope} {n : Nat} (within : scope.Within n) :
    (ts : List Term) → Scopes n (recordAll scope ts) fun m os => ∀ o ∈ os, o.Within m
  | [] => scopes_pure fun _ _ => List.forall_mem_nil _
  | t :: ts =>
    (scopes_record within t).bind fun _ _ le hfirst =>
      (scopes_recordAll (within.mono le) ts).bind fun _ _ le' hrest =>
        scopes_pure fun _ le'' => List.forall_mem_cons.2
          ⟨hfirst.mono (Nat.le_trans le' le''), fun o ho => (hrest o ho).mono le''⟩

end

end Term

/-- Operations read only earlier ones, and the result is one of them. -/
structure Trace.Scoped (t : Trace) : Prop where
  inputs : ReadsEarlier t.ops
  result : t.result < t.ops.length

namespace Lambda

open Recorder

theorem scopes_recordShared {arity n : Nat} {shared : List Operand}
    (within : Scope.Within n ⟨arity, shared⟩) (preparation : List Term) :
    Scopes n (recordShared arity shared preparation)
      fun m shared => Scope.Within m ⟨arity, shared⟩ := by
  induction preparation generalizing n shared with
  | nil => exact scopes_pure fun _ le => within.mono le
  | cons t ts ih =>
    refine (Term.scopes_record within t).bind fun o m le ho => ih ?_
    refine ⟨Nat.le_trans within.1 le, List.forall_mem_append.2 ⟨(within.mono le).2, ?_⟩⟩
    exact List.forall_mem_singleton.2 ho

theorem scopes_recordBody (arity : Nat) (preparation : List Term) (body : Term) :
    Scopes 0 (recordBody arity preparation body) fun m id => id < m := by
  have parameters (indices : List Nat) (n : Nat) :
      Scopes n (indices.forM fun index => discard (push (.param index)))
        fun m _ => n + indices.length ≤ m := by
    induction indices generalizing n with
    | nil => exact scopes_pure fun _ le => le
    | cons index indices ih =>
      have pushed : Scopes n (push (.param index)) fun m id => n ≤ id ∧ id < m :=
        scopes_push (List.forall_mem_nil _)
      refine pushed.discard.bind fun _ m _ ⟨id, le, lt⟩ => (ih m).mono fun m' _ _ long => ?_
      rw [List.length_cons]
      omega
  refine (parameters (List.range arity) 0).bind fun _ m _ long => ?_
  rw [List.length_range, Nat.zero_add] at long
  refine (scopes_recordShared ⟨long, List.forall_mem_nil _⟩ preparation).bind
    fun shared m' le within => ?_
  exact (Term.scopes_record within body).bind fun _ _ _ ho => scopes_lift ho

theorem scoped_of_extract {f : Lambda} {t : Trace} (h : f.extract = .ok t) : t.Scoped := by
  cases f with
  | sealed run => cases h
  | traced arity preparation body =>
    have recorded := scopes_recordBody arity preparation body {} (Nat.zero_le _) nofun
    rw [extract] at h
    generalize (recordBody arity preparation body).run {} = found at h recorded
    obtain ⟨result, ops, leaked⟩ := found
    cases leaked with
    | true => cases h
    | false =>
      obtain rfl := Except.ok.inj h
      exact ⟨recorded.1, recorded.2.2⟩

end Lambda

/-! ### What the result depends on -/

namespace Trace

variable {t : Trace} {id : Nat}

/-- One operation reads another. -/
def Reads (t : Trace) (id input : Nat) : Prop := ∃ op, t.ops[id]? = some op ∧ input ∈ op.inputs

/-- An operation needs itself, what it reads, and what these need. -/
def Needs (t : Trace) : Nat → Nat → Prop := Relation.ReflTransGen t.Reads

theorem Scoped.lt_of_reads (inOrder : t.Scoped) {input : Nat} (reads : t.Reads id input) :
    input < id := by
  obtain ⟨op, recorded, mem⟩ := reads
  exact inOrder.inputs id op recorded input mem

theorem Scoped.le_of_needs (inOrder : t.Scoped) {other : Nat} (needs : t.Needs id other) :
    other ≤ id := by
  induction needs with
  | refl => exact Nat.le_refl id
  | tail _ reads ih => exact Nat.le_trans (Nat.le_of_lt (inOrder.lt_of_reads reads)) ih

/-- What holds of the needed operations and passes from an operation to its inputs holds of all that
these need in turn. -/
theorem needed_induction {P : Nat → Prop} {ops : List (Op × Nat)}
    (step : ∀ op id, (op, id) ∈ ops → P id → ∀ i ∈ op.inputs, P i) {needs : List Nat}
    (start : ∀ id ∈ needs, P id) : ∀ id ∈ needed needs ops, P id := by
  induction ops generalizing needs with
  | nil => exact start
  | cons head earlier ih =>
    obtain ⟨op, id⟩ := head
    refine ih (fun op id h => step op id (List.mem_cons_of_mem _ h)) ?_
    split
    · next need =>
      have here := step op id List.mem_cons_self (start id (List.contains_iff_mem.1 need))
      exact fun i hi => (List.mem_append.1 hi).elim (here i) (start i)
    · exact start

theorem getElem?_of_mem_zipIdx_reverse {ops : List Op} {op : Op}
    (h : (op, id) ∈ ops.zipIdx.reverse) : ops[id]? = some op :=
  List.mem_zipIdx_iff_getElem?.1 (List.mem_reverse.1 h)

/-- The pass backwards keeps what it starts with, and takes in the inputs of all that it keeps, as
these stand before the operations that read them. -/
theorem needed_closed {ops : List Op} (inOrder : ReadsEarlier ops) (needs : List Nat) :
    needs ⊆ needed needs ops.zipIdx.reverse ∧
      ∀ id op, ops[id]? = some op → id ∈ needed needs ops.zipIdx.reverse →
        op.inputs ⊆ needed needs ops.zipIdx.reverse := by
  induction ops using List.reverseRecOn generalizing needs with
  | nil => exact ⟨List.Subset.refl _, nofun⟩
  | append_singleton ops last ih =>
    obtain ⟨inOrder, inputs⟩ := inOrder.of_concat
    rw [List.zipIdx_append, List.reverse_append, Nat.zero_add, List.zipIdx_singleton,
      List.reverse_singleton, List.singleton_append, needed]
    generalize hneeds' :
      (if needs.contains ops.length then last.inputs ++ needs else needs) = needs'
    obtain ⟨kept, closed⟩ := ih inOrder needs'
    have more : needs ⊆ needs' := by
      rw [← hneeds']
      split
      · exact List.subset_append_right _ _
      · exact List.Subset.refl _
    refine ⟨List.Subset.trans more kept, fun id op recorded mem => ?_⟩
    rcases Nat.lt_or_ge id ops.length with before | behind
    · exact closed id op (by rwa [List.getElem?_append_left before] at recorded) mem
    · -- the last operation is read by none of those before it, so it was needed from the start
      have bound := (List.getElem?_eq_some_iff.1 recorded).1
      obtain rfl : id = ops.length := by
        rw [List.length_append, List.length_singleton] at bound
        omega
      rw [List.getElem?_concat_length] at recorded
      obtain rfl := Option.some.inj recorded
      have early : ∀ i ∈ needed needs' ops.zipIdx.reverse, i ∈ needs' ∨ i < ops.length := by
        refine needed_induction (fun op id h _ i hi => .inr ?_) fun i hi => .inl hi
        have recorded := getElem?_of_mem_zipIdx_reverse h
        exact Nat.lt_trans (inOrder id op recorded i hi) (List.getElem?_eq_some_iff.1 recorded).1
      have needed := (early _ mem).resolve_right (Nat.lt_irrefl _)
      refine List.Subset.trans ?_ kept
      by_cases need : needs.contains ops.length
      · rw [← hneeds', if_pos need]
        exact List.subset_append_left _ _
      · rw [← hneeds', if_neg need] at needed
        exact absurd (List.contains_iff_mem.2 needed) need

/-- Reachable is what the result needs. -/
theorem isReachable_iff (inOrder : t.Scoped) : t.isReachable id ↔ t.Needs t.result id := by
  rw [isReachable, List.contains_iff_mem]
  constructor
  · intro mem
    refine needed_induction (P := t.Needs t.result) (fun op id h needs i hi => ?_) ?_ id mem
    · exact needs.tail ⟨op, getElem?_of_mem_zipIdx_reverse h, hi⟩
    · rw [List.forall_mem_singleton]
      exact .refl
  · intro needs
    obtain ⟨kept, closed⟩ := needed_closed inOrder.inputs [t.result]
    induction needs with
    | refl => exact kept (List.mem_singleton.2 rfl)
    | tail _ reads ih =>
      obtain ⟨op, recorded, mem⟩ := reads
      exact closed _ op recorded ih mem

/-- The operation is a call of an external function. -/
def IsExternal (t : Trace) (id : Nat) : Prop :=
  ∃ f arguments, t.ops[id]? = some (.call (.external f) arguments)

theorem mem_independentCalls (inOrder : t.Scoped) :
    id ∈ t.independentCalls ↔ t.IsExternal id ∧ ¬t.Needs t.result id := by
  rw [← isReachable_iff inOrder]
  simp only [independentCalls, externalCalls, List.mem_filter, List.mem_map, List.mem_filterMap,
    Prod.exists, List.mem_zipIdx_iff_getElem?, Option.map_eq_some_iff, Bool.not_eq_true',
    IsExternal]
  constructor
  · rintro ⟨⟨id, f, ⟨op, _, recorded, _, external, same⟩, rfl⟩, free⟩
    obtain ⟨rfl, rfl⟩ := Prod.mk.inj same
    obtain ⟨arguments, rfl⟩ := Op.external?_eq_some external
    exact ⟨⟨_, arguments, recorded⟩, by simp [free]⟩
  · rintro ⟨⟨f, arguments, recorded⟩, free⟩
    exact ⟨⟨id, f, ⟨_, id, recorded, f, rfl, rfl⟩, rfl⟩, by simpa using free⟩

theorem pairwise_independentCalls (t : Trace) : t.independentCalls.Pairwise (· < ·) := by
  have places : t.ops.zipIdx.Pairwise fun a b => a.2 < b.2 := by
    refine List.pairwise_map.1 ?_
    rw [List.zipIdx_map_snd]
    exact List.pairwise_lt_range'
  rw [independentCalls, externalCalls, List.map_filterMap]
  refine List.Pairwise.filter _ (places.filterMap _ fun a b lt i hi j hj => ?_)
  simp only [Option.map_map, Option.map_eq_some_iff] at hi hj
  obtain ⟨_, _, rfl⟩ := hi
  obtain ⟨_, _, rfl⟩ := hj
  exact lt

end Trace
end EntityQuery
