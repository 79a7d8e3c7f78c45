import EntityQuery.Proofs.Lambda.Scoping

/-! The search for what the result of a trace depends on, with a stack of operations that are still
to be looked at. In the trace of a lambda it never looks outside, it ends after as many rounds as
operations were put on the stack, and it has marked what the pass backwards finds. -/
namespace EntityQuery

/-- Which operations were seen, and which are still to be looked at, the last noted first. -/
structure Search where
  seen : List Bool
  pending : List Nat

namespace Search

/-- Looks at the operation noted last: when it is new it is marked, and its inputs are noted. There
is no next state if it stands outside the trace. -/
def round (ops : List Op) : Search → Option Search
  | ⟨seen, []⟩ => some ⟨seen, []⟩
  | ⟨seen, id :: pending⟩ =>
    match seen[id]?, ops[id]? with
    | some true, _ => some ⟨seen, pending⟩
    | some false, some op => some ⟨seen.set id true, op.inputs.reverse ++ pending⟩
    | _, _ => none

def rounds (ops : List Op) : Nat → Search → Option Search
  | 0, s => some s
  | n + 1, s => (s.round ops).bind (rounds ops n)

/-- Nothing is seen yet, and the result is to be looked at. -/
def start (t : Trace) : Search := ⟨List.replicate t.ops.length false, [t.result]⟩

variable {t : Trace} {s s' : Search} {id : Nat}

/-- What a search knows between two rounds. -/
structure Explores (t : Trace) (s : Search) : Prop where
  flags : s.seen.length = t.ops.length
  seen : ∀ id, s.seen[id]? = some true → t.Needs t.result id
  pending : ∀ id ∈ s.pending, t.Needs t.result id
  result : s.seen[t.result]? = some true ∨ t.result ∈ s.pending
  closed : ∀ id input, s.seen[id]? = some true → t.Reads id input →
    s.seen[input]? = some true ∨ input ∈ s.pending

theorem explores_start (t : Trace) : Explores t (start t) where
  flags := List.length_replicate
  seen id marked := by
    rw [start, List.getElem?_replicate] at marked
    split at marked <;> cases marked
  pending := List.forall_mem_singleton.2 .refl
  result := .inr (List.mem_singleton.2 rfl)
  closed id input marked := by
    rw [start, List.getElem?_replicate] at marked
    split at marked <;> cases marked

/-- The inputs of what is not seen yet. -/
def unseen (seen : List Bool) (ops : List Op) : List Nat :=
  (seen.zip ops).flatMap fun (seen, op) => if seen then [] else op.inputs

/-- What is still to be paid for: a round for each operation that is noted, and one for each input
of an operation that is not seen. -/
def cost (ops : List Op) (s : Search) : Nat := (unseen s.seen ops).length + s.pending.length

/-- Marking an operation pays for its inputs. -/
theorem unseen_mark {seen : List Bool} {ops : List Op} {op : Op} (new : seen[id]? = some false)
    (recorded : ops[id]? = some op) :
    (unseen seen ops).length = (unseen (seen.set id true) ops).length + op.inputs.length := by
  induction seen generalizing ops id with
  | nil => cases new
  | cons flag seen ih =>
    cases ops with
    | nil => cases recorded
    | cons first ops =>
      cases id with
      | zero =>
        obtain rfl := Option.some.inj new
        obtain rfl := Option.some.inj recorded
        simp [unseen, Nat.add_comm]
      | succ id =>
        have new' : seen[id]? = some false := new
        have recorded' : ops[id]? = some op := recorded
        have rest := ih new' recorded'
        simp only [unseen, List.set_cons_succ, List.zip_cons_cons, List.flatMap_cons,
          List.length_append, Nat.add_assoc] at rest ⊢
        rw [rest]

section Round

variable {seen : List Bool} {pending : List Nat}

theorem Explores.again (h : Explores t ⟨seen, id :: pending⟩) (flag : seen[id]? = some true) :
    Explores t ⟨seen, pending⟩ := by
  have settled {i : Nat} (known : seen[i]? = some true ∨ i ∈ id :: pending) :
      seen[i]? = some true ∨ i ∈ pending := by
    rcases known with known | known
    · exact .inl known
    · obtain rfl | known := List.mem_cons.1 known
      · exact .inl flag
      · exact .inr known
  refine ⟨h.flags, h.seen, fun i mem => h.pending i (List.mem_cons_of_mem _ mem), ?_, ?_⟩
  · exact settled h.result
  · exact fun i input marked reads => settled (h.closed i input marked reads)

theorem Explores.mark {op : Op} (h : Explores t ⟨seen, id :: pending⟩)
    (recorded : t.ops[id]? = some op) :
    Explores t ⟨seen.set id true, op.inputs.reverse ++ pending⟩ := by
  have need := h.pending id List.mem_cons_self
  have inSeen : id < seen.length := h.flags ▸ (List.getElem?_eq_some_iff.1 recorded).1
  have marks (i : Nat) : (seen.set id true)[i]? = some true ↔ i = id ∨ seen[i]? = some true := by
    rw [List.getElem?_set]
    split
    · next same => simp [same]
    · next other => simp [Ne.symm other]
  have noted (i : Nat) : i ∈ op.inputs.reverse ++ pending ↔ t.Reads id i ∨ i ∈ pending := by
    rw [List.mem_append, List.mem_reverse]
    refine or_congr_left ⟨fun mem => ⟨op, recorded, mem⟩, ?_⟩
    rintro ⟨op', recorded', mem⟩
    exact Option.some.inj (recorded.symm.trans recorded') ▸ mem
  have settled {i : Nat} (known : seen[i]? = some true ∨ i ∈ id :: pending) :
      (seen.set id true)[i]? = some true ∨ i ∈ op.inputs.reverse ++ pending := by
    rw [marks, noted]
    rw [List.mem_cons] at known
    tauto
  refine ⟨(List.length_set ..).trans h.flags, fun i marked => ?_, fun i mem => ?_,
    settled h.result, fun i input marked reads => ?_⟩
  · obtain rfl | marked := (marks i).1 marked
    · exact need
    · exact h.seen i marked
  · obtain reads | mem := (noted i).1 mem
    · exact need.tail reads
    · exact h.pending i (List.mem_cons_of_mem _ mem)
  · obtain rfl | marked := (marks i).1 marked
    · exact .inr ((noted input).2 (.inl reads))
    · exact settled (h.closed i input marked reads)

/-- A round finds the operation that it looks at, keeps what the search knows, and is paid for. -/
theorem Explores.round (h : Explores t ⟨seen, id :: pending⟩) (inOrder : t.Scoped) :
    ∃ s', Search.round t.ops ⟨seen, id :: pending⟩ = some s' ∧ Explores t s' ∧
      cost t.ops ⟨seen, id :: pending⟩ = s'.cost t.ops + 1 := by
  have need := h.pending id List.mem_cons_self
  have bound : id < t.ops.length := Nat.lt_of_le_of_lt (inOrder.le_of_needs need) inOrder.result
  have recorded : t.ops[id]? = some t.ops[id] := List.getElem?_eq_getElem bound
  cases flag : seen[id]? with
  | none =>
    refine absurd (List.getElem?_eq_none_iff.1 flag) (Nat.not_le_of_lt ?_)
    exact h.flags.symm ▸ bound
  | some again =>
    cases again with
    | true => exact ⟨_, by rw [Search.round, flag], h.again flag, rfl⟩
    | false =>
      refine ⟨_, by rw [Search.round, flag, recorded], h.mark recorded, ?_⟩
      simp only [cost, unseen_mark flag recorded, List.length_append, List.length_reverse,
        List.length_cons]
      omega

end Round

theorem rounds_done (ops : List Op) (n : Nat) (seen : List Bool) :
    rounds ops n ⟨seen, []⟩ = some ⟨seen, []⟩ := by
  induction n with
  | zero => rfl
  | succ n ih => exact ih

/-- The search ends after as many rounds as are to be paid for. The induction is on these. -/
theorem Explores.rounds (h : Explores t s) (inOrder : t.Scoped) :
    ∃ seen, s.rounds t.ops (s.cost t.ops) = some ⟨seen, []⟩ ∧ Explores t ⟨seen, []⟩ := by
  obtain ⟨seen, pending⟩ := s
  generalize paid : cost t.ops ⟨seen, pending⟩ = n
  induction n generalizing seen pending with
  | zero =>
    obtain rfl := List.eq_nil_of_length_eq_zero (Nat.eq_zero_of_add_eq_zero_left paid)
    exact ⟨seen, rfl, h⟩
  | succ n ih =>
    cases pending with
    | nil => exact ⟨seen, rounds_done _ _ seen, h⟩
    | cons id pending =>
      obtain ⟨⟨seen', pending'⟩, next, known, spent⟩ := h.round inOrder
      obtain ⟨last, ended, known'⟩ :=
        ih seen' pending' known (Nat.succ.inj (spent.symm.trans paid))
      exact ⟨last, by rw [Search.rounds, next]; exact ended, known'⟩

/-- When nothing is left to be looked at, the operations seen are those that the result needs. -/
theorem Explores.seen_iff {seen : List Bool} (h : Explores t ⟨seen, []⟩) :
    seen[id]? = some true ↔ t.Needs t.result id := by
  refine ⟨h.seen id, fun needs => ?_⟩
  induction needs with
  | refl => exact h.result.resolve_right List.not_mem_nil
  | tail _ reads ih => exact (h.closed _ _ ih reads).resolve_right List.not_mem_nil

theorem cost_start (t : Trace) : (start t).cost t.ops = (t.ops.flatMap Op.inputs).length + 1 := by
  have all (ops : List Op) : unseen (List.replicate ops.length false) ops =
      ops.flatMap Op.inputs := by
    induction ops with
    | nil => rfl
    | cons op ops ih => exact congrArg (op.inputs ++ ·) ih
  rw [cost, start, all]
  rfl

/-- The search ends, with a round for the result and one for each input in the trace at most, and
has marked what is reachable. -/
theorem rounds_start (inOrder : t.Scoped) :
    rounds t.ops ((t.ops.flatMap Op.inputs).length + 1) (start t) =
      some ⟨(List.range t.ops.length).map t.isReachable, []⟩ := by
  obtain ⟨seen, ended, known⟩ := (explores_start t).rounds inOrder
  rw [← cost_start, ended]
  have marked (id : Nat) (h : id < seen.length) : seen[id] = t.isReachable id := by
    rw [Bool.eq_iff_iff, Trace.isReachable_iff inOrder, ← known.seen_iff,
      List.getElem?_eq_getElem h, Option.some.injEq]
  congr 2
  refine List.ext_getElem (by simpa using known.flags) fun id h _ => ?_
  rw [List.getElem_map, List.getElem_range, marked id h]

end Search
end EntityQuery
