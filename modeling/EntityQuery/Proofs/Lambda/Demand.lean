import EntityQuery.Proofs.Lambda.Observation

/-! What an evaluation demands. Of its operands an operation computes those that it takes, as far as
the values known say. Between two operations the values known are closed under what they take, each
of them was demanded, and the calls among them are those in the log, once each. -/
namespace EntityQuery

/-- With this value of the left operand the right one is not computed. -/
def BinaryOp.SettledBy : BinaryOp → Value → Prop
  | .and, v => v = .bool false
  | .or, v => v = .bool true
  | _, _ => False

/-- The operands that an operation computes, given the values of those that it computes before: not
the arm of a branch that is not taken, and not a right operand when the left one settles the matter.
The provider of a stream of entities is never computed. -/
def Op.Takes (value? : Nat → Option Value) : Op → Nat → Prop
  | .binary op left right, i =>
    i = left ∨ i = right ∧ ∃ v, value? left = some v ∧ ¬op.SettledBy v
  | .branch condition whenTrue whenFalse, i =>
    i = condition ∨ i = whenTrue ∧ value? condition = some (.bool true) ∨
      i = whenFalse ∧ value? condition = some (.bool false)
  | .streamEntity _ _, _ => False
  | op, i => i ∈ op.inputs

/-- An operation is demanded as the result, as a call that the result does not depend on, or as an
operand that a demanded operation computes. -/
inductive Trace.Demanded (t : Trace) (value? : Nat → Option Value) : Nat → Prop
  | result : Demanded t value? t.result
  | independent {id : Nat} (mem : id ∈ t.independentCalls) : Demanded t value? id
  | operand {id i : Nat} {op : Op} (demanded : Demanded t value? id)
    (recorded : t.ops[id]? = some op) (takes : op.Takes value? i) : Demanded t value? i

/-- A call was made by an external call of the trace, with the values of its operands. -/
def Call.Made (t : Trace) (value? : Nat → Option Value) (c : Call) : Prop :=
  ∃ f items, t.ops[c.id]? = some (.call (.external f) items) ∧ c.name = f.name ∧
    items.map value? = c.arguments.map some

/-! ### Values that stay -/

/-- What was known is still known. -/
def Retains (value? value?' : Nat → Option Value) : Prop :=
  ∀ id v, value? id = some v → value?' id = some v

section Retains

variable {t : Trace} {value? value?' : Nat → Option Value} {id i : Nat} {op : Op}

theorem Retains.isSome (h : Retains value? value?') (known : (value? id).isSome) :
    (value?' id).isSome := by
  obtain ⟨v, hv⟩ := Option.isSome_iff_exists.1 known
  exact Option.isSome_iff_exists.2 ⟨v, h id v hv⟩

theorem Op.Takes.inputs (h : op.Takes value? i) : i ∈ op.inputs := by
  cases op with
  | binary op left right =>
    obtain rfl | ⟨rfl, -⟩ := h <;> simp [Op.inputs]
  | branch condition whenTrue whenFalse =>
    obtain rfl | ⟨rfl, -⟩ | ⟨rfl, -⟩ := h <;> simp [Op.inputs]
  | streamEntity provider entity => exact h.elim
  | _ => exact h

theorem Op.Takes.keep (keeps : Retains value? value?') (h : op.Takes value? i) :
    op.Takes value?' i := by
  cases op with
  | binary op left right =>
    obtain rfl | ⟨rfl, v, known, open'⟩ := h
    · exact .inl rfl
    · exact .inr ⟨rfl, v, keeps _ _ known, open'⟩
  | branch condition whenTrue whenFalse =>
    obtain rfl | ⟨rfl, known⟩ | ⟨rfl, known⟩ := h
    · exact .inl rfl
    · exact .inr (.inl ⟨rfl, keeps _ _ known⟩)
    · exact .inr (.inr ⟨rfl, keeps _ _ known⟩)
  | streamEntity provider entity => exact h
  | _ => exact h

/-- An operation that has all it takes takes nothing more later. -/
theorem Op.Takes.of_keep (keeps : Retains value? value?')
    (closed : ∀ i, op.Takes value? i → (value? i).isSome) (h : op.Takes value?' i) :
    op.Takes value? i := by
  cases op with
  | binary op left right =>
    obtain rfl | ⟨rfl, v, known, open'⟩ := h
    · exact .inl rfl
    · obtain ⟨w, hw⟩ := Option.isSome_iff_exists.1 (closed left (.inl rfl))
      obtain rfl := Option.some.inj ((keeps _ _ hw).symm.trans known)
      exact .inr ⟨rfl, w, hw, open'⟩
  | branch condition whenTrue whenFalse =>
    obtain ⟨w, hw⟩ := Option.isSome_iff_exists.1 (closed condition (.inl rfl))
    have same := keeps _ _ hw
    obtain rfl | ⟨rfl, known⟩ | ⟨rfl, known⟩ := h
    · exact .inl rfl
    · exact .inr (.inl ⟨rfl, hw.trans (same.symm.trans known)⟩)
    · exact .inr (.inr ⟨rfl, hw.trans (same.symm.trans known)⟩)
  | streamEntity provider entity => exact h
  | _ => exact h

theorem Trace.Demanded.keep (keeps : Retains value? value?') (h : t.Demanded value? id) :
    t.Demanded value?' id := by
  induction h with
  | result => exact .result
  | independent mem => exact .independent mem
  | operand _ recorded takes ih => exact .operand ih recorded (takes.keep keeps)

theorem isSome_of_values {items : List Nat} {vs : List Value}
    (values : items.map value? = vs.map some) (hi : i ∈ items) : (value? i).isSome := by
  have known : value? i ∈ vs.map some := values ▸ List.mem_map_of_mem hi
  obtain ⟨v, -, hv⟩ := List.mem_map.1 known
  exact hv ▸ rfl

theorem Call.Made.keep {c : Call} (keeps : Retains value? value?') (h : c.Made t value?) :
    c.Made t value?' := by
  obtain ⟨f, items, recorded, name, values⟩ := h
  refine ⟨f, items, recorded, name, ?_⟩
  rw [← values]
  refine List.map_congr_left fun i hi => ?_
  obtain ⟨v, hv⟩ := Option.isSome_iff_exists.1 (isSome_of_values values hi)
  rw [keeps i v hv, hv]

end Retains

namespace Evaluation

variable {τ α β : Type} {t : Trace}

/-- What an evaluation knows and has done between two operations. -/
structure Sound (t : Trace) (memo : Memo) (log : List Call) : Prop where
  demanded : ∀ id, (memo.value? id).isSome → t.Demanded memo.value? id
  closed : ∀ id op, (memo.value? id).isSome → t.ops[id]? = some op →
    ∀ i, op.Takes memo.value? i → (memo.value? i).isSome
  called : ∀ id, t.IsExternal id → ((memo.value? id).isSome ↔ id ∈ log.map Call.id)
  made : ∀ c ∈ log, c.Made t memo.value?
  once : (log.map Call.id).Nodup
  answered : ∀ c ∈ log, ∃ v, c.answer = .ok v

/-- What an evaluation leaves that failed: it stopped between two operations, or at a call. -/
inductive Stopped (t : Trace) (e : EvalError) (memo : Memo) : List Call → Prop
  | quiet {log : List Call} (sound : Sound t memo log) : Stopped t e memo log
  | call {log : List Call} {c : Call} (sound : Sound t memo log) (failed : c.answer = .error e)
    (made : c.Made t memo.value?) (demanded : t.Demanded memo.value? c.id)
    (first : memo.value? c.id = none) : Stopped t e memo (log ++ [c])

section Remember

variable {memo : Memo} {log : List Call} {id : Nat} {v : Value}

theorem keeps_remember (first : memo.value? id = none) :
    Retains memo.value? (Memo.value? ((id, v) :: memo)) := by
  intro i w known
  have other : (i == id) = false := by
    rw [beq_eq_false_iff_ne]
    rintro rfl
    rw [first] at known
    cases known
  rw [Memo.value?, List.lookup_cons, other]
  exact known

theorem isSome_remember {i : Nat} :
    (Memo.value? ((id, v) :: memo) i).isSome ↔ i = id ∨ (memo.value? i).isSome := by
  rw [Memo.value?, List.lookup_cons]
  cases h : i == id with
  | true => simpa using .inl (eq_of_beq h)
  | false => exact ⟨.inr, fun known => known.resolve_left (ne_of_beq_false h)⟩

variable (sound : Sound t memo log) (first : memo.value? id = none)
include sound first

/-- What is computed next was demanded, as all that was computed before. -/
theorem Sound.demanded_remember (demanded : t.Demanded memo.value? id) (i : Nat)
    (known : (Memo.value? ((id, v) :: memo) i).isSome) :
    t.Demanded (Memo.value? ((id, v) :: memo)) i := by
  obtain rfl | known := isSome_remember.1 known
  · exact demanded.keep (keeps_remember first)
  · exact (sound.demanded i known).keep (keeps_remember first)

/-- What is computed next has its operands, as all that was computed before. -/
theorem Sound.closed_remember
    (taken : ∀ op, t.ops[id]? = some op → ∀ i, op.Takes memo.value? i → (memo.value? i).isSome)
    (i : Nat) (op : Op) (known : (Memo.value? ((id, v) :: memo) i).isSome)
    (recorded : t.ops[i]? = some op) (j : Nat)
    (takes : op.Takes (Memo.value? ((id, v) :: memo)) j) :
    (Memo.value? ((id, v) :: memo) j).isSome := by
  have keeps := keeps_remember (v := v) first
  obtain rfl | known := isSome_remember.1 known
  · exact keeps.isSome (taken op recorded j (takes.of_keep keeps (taken op recorded)))
  · have closed := sound.closed i op known recorded
    exact keeps.isSome (closed j (takes.of_keep keeps closed))

theorem Sound.remember {op : Op} (demanded : t.Demanded memo.value? id)
    (recorded : t.ops[id]? = some op) (internal : op.external? = none)
    (taken : ∀ i, op.Takes memo.value? i → (memo.value? i).isSome) :
    Sound t ((id, v) :: memo) log where
  demanded := sound.demanded_remember first demanded
  closed := sound.closed_remember first fun op' recorded' =>
    Option.some.inj (recorded.symm.trans recorded') ▸ taken
  called i external := by
    rw [isSome_remember, sound.called i external, or_iff_right]
    rintro rfl
    obtain ⟨f, items, recorded'⟩ := external
    rw [Option.some.inj (recorded.symm.trans recorded')] at internal
    cases internal
  made c hc := (sound.made c hc).keep (keeps_remember first)
  once := sound.once
  answered := sound.answered

/-- A call that is answered is taken down and its answer is remembered. -/
theorem Sound.answer {c : Call} (place : c.id = id) (answered : c.answer = .ok v)
    (made : c.Made t memo.value?) (demanded : t.Demanded memo.value? id) :
    Sound t ((id, v) :: memo) (log ++ [c]) := by
  obtain ⟨f, items, recorded, name, values⟩ := made
  have keeps := keeps_remember (v := v) first
  refine ⟨sound.demanded_remember first demanded, ?_, fun i external => ?_, ?_, ?_, ?_⟩
  · refine sound.closed_remember first fun op recorded' i takes => ?_
    obtain rfl := Option.some.inj (recorded.symm.trans (place ▸ recorded'))
    exact isSome_of_values values takes
  · rw [isSome_remember, sound.called i external, List.map_append, List.mem_append, or_comm,
      List.map_singleton, List.mem_singleton, place]
  · refine List.forall_mem_append.2 ⟨fun c hc => (sound.made c hc).keep keeps, ?_⟩
    exact List.forall_mem_singleton.2 (Call.Made.keep keeps ⟨f, items, recorded, name, values⟩)
  · have new : c.id ∉ log.map Call.id := fun mem => by
      have known := (sound.called c.id ⟨f, items, recorded⟩).2 mem
      rw [place, first] at known
      cases known
    rw [List.map_append, List.nodup_append]
    exact ⟨sound.once, List.pairwise_singleton _ _, fun _ hi _ hj => by
      obtain rfl := List.mem_singleton.1 hj
      exact fun same => new (same ▸ hi)⟩
  · exact List.forall_mem_append.2 ⟨sound.answered, List.forall_mem_singleton.2 ⟨v, answered⟩⟩

end Remember

end Evaluation
end EntityQuery
