import EntityQuery.Proofs.Lambda.Settling

/-! Which external functions an evaluation invokes, and in what order. The calls that the result
does not depend on come first, in the order of recording; any other call is made only if it is
demanded; none is made twice, and after a failing call nothing is invoked. -/
namespace EntityQuery

/-- The external functions are invoked as they should be. -/
structure Observation.Orderly (t : Trace) (o : Observation) : Prop where
  made : ∀ c ∈ o.log, c.Made t o.memo.value?
  once : (o.log.map Call.id).Nodup
  demanded : ∀ c ∈ o.log, t.Demanded o.memo.value? c.id
  /-- Calls that the result does not depend on come one after another. -/
  order : (o.log.map Call.id).filter (t.independentCalls.contains ·) <+: t.independentCalls
  /-- Nothing is left out unless the evaluation fails. -/
  all : ∀ v, o.result = .ok v →
    (o.log.map Call.id).filter (t.independentCalls.contains ·) = t.independentCalls ∧
      ∀ id, t.IsExternal id → t.Demanded o.memo.value? id → id ∈ o.log.map Call.id
  /-- A failing call is the last one, and its failure is that of the evaluation. -/
  last : ∀ before c after e, o.log = before ++ c :: after → c.answer = .error e →
    after = [] ∧ o.result = .error e

namespace Evaluation

variable {τ α β : Type} {t : Trace}

/-! ### The calls that the result does not depend on -/

/-- The calls of a log that the result does not depend on. -/
def independent (t : Trace) (log : List Call) : List Nat :=
  (log.map Call.id).filter (t.independentCalls.contains ·)

theorem independent_append (t : Trace) (log new : List Call) :
    independent t (log ++ new) = independent t log ++ independent t new := by
  rw [independent, List.map_append, List.filter_append, independent, independent]

theorem mem_independent {log : List Call} {id : Nat} :
    id ∈ independent t log ↔ id ∈ log.map Call.id ∧ id ∈ t.independentCalls := by
  rw [independent, List.mem_filter, List.contains_iff_mem]

section Ends

variable {memo : Memo} {log : List Call} {e : EvalError}

/-- Also the call that failed was made and demanded, and is the only one of its operation. -/
theorem Stopped.calls (h : Stopped t e memo log) :
    (∀ c ∈ log, c.Made t memo.value?) ∧ (log.map Call.id).Nodup ∧
      ∀ c ∈ log, t.Demanded memo.value? c.id := by
  have before {log : List Call} (sound : Sound t memo log) (c : Call) (hc : c ∈ log) :
      (memo.value? c.id).isSome := by
    obtain ⟨f, items, recorded, -⟩ := sound.made c hc
    exact (sound.called c.id ⟨f, items, recorded⟩).2 (List.mem_map_of_mem hc)
  cases h with
  | quiet sound =>
    exact ⟨sound.made, sound.once, fun c hc => sound.demanded _ (before sound c hc)⟩
  | @call log c sound failed made demanded first =>
    refine ⟨?_, ?_, ?_⟩
    · exact List.forall_mem_append.2 ⟨sound.made, List.forall_mem_singleton.2 made⟩
    · rw [List.map_append, List.nodup_append]
      refine ⟨sound.once, List.pairwise_singleton _ _, fun i hi j hj same => ?_⟩
      obtain ⟨c', hc', rfl⟩ := List.mem_map.1 hi
      have known := before sound c' hc'
      rw [same, List.mem_singleton.1 hj, first] at known
      cases known
    · exact List.forall_mem_append.2 ⟨fun c hc => sound.demanded _ (before sound c hc),
        List.forall_mem_singleton.2 demanded⟩

/-- A failing call is the last one. -/
theorem Stopped.last (h : Stopped t e memo log) {before after : List Call} {c : Call}
    {e' : EvalError} (split : log = before ++ c :: after) (failed : c.answer = .error e') :
    after = [] ∧ e = e' := by
  have earlier {log : List Call} (sound : Sound t memo log) : c ∉ log := fun mem => by
    obtain ⟨v, answered⟩ := sound.answered c mem
    cases failed.symm.trans answered
  cases h with
  | quiet sound =>
    refine absurd ?_ (earlier sound)
    rw [split]
    exact List.mem_append_right _ List.mem_cons_self
  | @call log c' sound failed' =>
    rcases List.eq_nil_or_concat after with rfl | ⟨others, d, rfl⟩
    · obtain ⟨-, same⟩ := List.append_inj' split rfl
      obtain rfl := (List.cons.inj same).1
      exact ⟨rfl, Except.error.inj (failed'.symm.trans failed)⟩
    · rw [List.concat_eq_append, ← List.cons_append, ← List.append_assoc] at split
      obtain ⟨rfl, -⟩ := List.append_inj' split rfl
      exact absurd (List.mem_append_right _ List.mem_cons_self) (earlier sound)

end Ends

section Phases

variable {p p' : Progress (τ × List Call)} {behaviour : Behaviour τ} {source : EntitySource τ}
  {arguments : List Value}

/-- While a call is computed that the result does not depend on, with those before it done, no other
such call is made. -/
theorem independent_of_advances (inOrder : t.Scoped) {done rest : List Nat} {id : Nat}
    (split : t.independentCalls = done ++ id :: rest) (sound : Sound t p.memo p.source.2)
    (sofar : independent t p.source.2 = done) (advances : Advances (t.Needs id) p p')
    (once : (p'.source.2.map Call.id).Nodup) :
    independent t p'.source.2 = done ∨ independent t p'.source.2 = done ++ [id] := by
  obtain ⟨new, logged, fresh⟩ := advances.log
  have sorted := split ▸ t.pairwise_independentCalls
  have only : ∀ i ∈ independent t new, i = id := by
    intro i hi
    obtain ⟨called, free⟩ := mem_independent.1 hi
    obtain ⟨c, hc, rfl⟩ := List.mem_map.1 called
    obtain ⟨needs, unknown⟩ := fresh c hc
    have before := inOrder.le_of_needs needs
    have external := ((t.mem_independentCalls inOrder).1 free).1
    rw [split] at free
    obtain earlier | here | later := by simpa using free
    · have known := (sound.called _ external).2 (mem_independent.1 (sofar ▸ earlier)).1
      rw [unknown] at known
      cases known
    · exact here
    · have behind := (List.pairwise_cons.1 (List.pairwise_append.1 sorted).2.1).1 _ later
      omega
  have whole : independent t p'.source.2 = done ++ independent t new := by
    rw [logged, independent_append, sofar]
  have few : (independent t new).Nodup := by
    rw [logged, List.map_append] at once
    exact (List.nodup_append.1 once).2.1.filter _
  rw [whole]
  obtain ⟨n, same⟩ : ∃ n, independent t new = List.replicate n id :=
    ⟨_, List.eq_replicate_of_mem only⟩
  rw [same, List.nodup_replicate] at few
  rw [same]
  match n, few with
  | 0, _ => exact .inl (List.append_nil _)
  | 1, _ => exact .inr rfl

/-- How far the calls have come that the result does not depend on. -/
def Proceeds (t : Trace) (Q : α → Memo → Prop) (r : Except EvalError α × Progress (τ × List Call)) :
    Prop :=
  match r with
  | (.ok a, p) =>
    Sound t p.memo p.source.2 ∧ independent t p.source.2 = t.independentCalls ∧ Q a p.memo
  | (.error e, p) =>
    Stopped t e p.memo p.source.2 ∧ independent t p.source.2 <+: t.independentCalls

/-- They are made one after another, each after those before it. The induction is on those that are
left. -/
theorem proceeds_independentCalls (inOrder : t.Scoped) {done rest : List Nat}
    (split : t.independentCalls = done ++ rest) (sound : Sound t p.memo p.source.2)
    (sofar : independent t p.source.2 = done) :
    Proceeds t (fun _ _ => True) ((rest.forM fun id =>
      discard (valueObserved behaviour source arguments t.ops t.ops.length id)).run p) := by
  induction rest generalizing done p with
  | nil => exact ⟨sound, by rw [sofar, split, List.append_nil], trivial⟩
  | cons id rest ih =>
    have here : id ∈ t.independentCalls := by simp [split]
    have settles : Settles t (t.Needs id)
        (discard (valueObserved behaviour source arguments t.ops t.ops.length id)) p
        fun _ memo => (memo.value? id).isSome :=
      (settles_valueObserved inOrder behaviour source arguments _ id sound (.independent here)).bind
        fun _ _ _ sound known => settles_pure sound (known ▸ rfl)
    obtain ⟨advances, ends⟩ := settles
    rw [List.forM_eq_forM, List.forM_cons, ← List.forM_eq_forM]
    rcases run :
      (discard (valueObserved behaviour source arguments t.ops t.ops.length id)).run p with ⟨r, p'⟩
    rw [run] at advances ends
    have made := independent_of_advances inOrder split sound sofar advances
    cases r with
    | ok _ =>
      rw [run_bind_ok run]
      obtain ⟨sound, known⟩ := ends
      have external := ((t.mem_independentCalls inOrder).1 here).1
      have mem := mem_independent.2 ⟨(sound.called id external).1 known, here⟩
      refine ih (by rw [split, List.append_assoc, List.singleton_append]) sound
        ((made sound.once).resolve_left fun same => ?_)
      have sorted := split ▸ t.pairwise_independentCalls
      exact Nat.lt_irrefl id
        ((List.pairwise_append.1 sorted).2.2 id (same ▸ mem) id List.mem_cons_self)
    | error e =>
      rw [run_bind_error run]
      refine ⟨ends, ?_⟩
      rw [split]
      obtain same | same := made ends.calls.2.1
      · rw [same]
        exact List.prefix_append _ _
      · rw [same]
        exact ⟨rest, by rw [List.append_assoc, List.singleton_append]⟩

theorem proceeds_observed (inOrder : t.Scoped) (behaviour : Behaviour τ) (source : EntitySource τ)
    (arguments : List Value) (s : τ) :
    Proceeds t (fun _ memo => (memo.value? t.result).isSome)
      ((observed behaviour source t arguments).run { calls := [], source := (s, []) }) := by
  have start : Sound t [] [] := ⟨nofun, nofun, fun _ _ => by simp [Memo.value?], nofun, .nil, nofun⟩
  have first : Proceeds t (fun _ _ => True) ((t.independentCalls.forM fun id =>
      discard (valueObserved behaviour source arguments t.ops t.ops.length id)).run
        { calls := [], source := (s, []) }) :=
    proceeds_independentCalls inOrder (List.nil_append _).symm start rfl
  rw [observed]
  rcases run : (t.independentCalls.forM fun id =>
    discard (valueObserved behaviour source arguments t.ops t.ops.length id)).run
      { calls := [], source := (s, []) } with ⟨r, p⟩
  rw [run] at first
  cases r with
  | error e =>
    rw [run_bind_error run]
    exact first
  | ok _ =>
    rw [run_bind_ok run]
    obtain ⟨sound, all, -⟩ := first
    obtain ⟨advances, ends⟩ := settles_valueObserved inOrder behaviour source arguments
      t.ops.length t.result sound .result
    obtain ⟨new, logged, fresh⟩ := advances.log
    have none : independent t new = [] := List.eq_nil_iff_forall_not_mem.2 fun id hid => by
      obtain ⟨called, free⟩ := mem_independent.1 hid
      obtain ⟨c, hc, rfl⟩ := List.mem_map.1 called
      exact ((t.mem_independentCalls inOrder).1 free).2 (fresh c hc).1
    rcases run : (valueObserved behaviour source arguments t.ops t.ops.length t.result).run p with
      ⟨r, p'⟩
    rw [run] at ends logged
    have same : independent t p'.source.2 = t.independentCalls := by
      rw [logged, independent_append, none, all, List.append_nil]
    cases r with
    | ok v => exact ⟨ends.1, same, Option.isSome_iff_exists.2 ⟨v, ends.2⟩⟩
    | error e => exact ⟨ends, same ▸ List.prefix_refl _⟩

end Phases

end Evaluation

open Evaluation

/-- In the end all that is demanded was computed. -/
theorem isSome_of_demanded {t : Trace} {memo : Memo} {log : List Call} {id : Nat}
    (inOrder : t.Scoped) (sound : Sound t memo log)
    (all : independent t log = t.independentCalls) (result : (memo.value? t.result).isSome)
    (demanded : t.Demanded memo.value? id) : (memo.value? id).isSome := by
  induction demanded with
  | result => exact result
  | independent mem =>
    have called := (mem_independent.1 (all ▸ mem)).1
    exact (sound.called _ ((t.mem_independentCalls inOrder).1 mem).1).2 called
  | operand _ recorded takes ih => exact sound.closed _ _ ih recorded _ takes

theorem Trace.observe_orderly {τ : Type} {t : Trace} (inOrder : t.Scoped) (behaviour : Behaviour τ)
    (source : EntitySource τ) (arguments : List Value) (s : τ) :
    (t.observe behaviour source arguments s).Orderly t := by
  have proceeds := proceeds_observed inOrder behaviour source arguments s
  rw [observe]
  rcases run : (observed behaviour source t arguments).run { calls := [], source := (s, []) } with
    ⟨r, p⟩
  rw [run] at proceeds
  cases r with
  | ok v =>
    obtain ⟨sound, all, result⟩ := proceeds
    obtain ⟨made, once, demanded⟩ := (Stopped.quiet (e := .divisionByZero) sound).calls
    refine ⟨made, once, demanded, ⟨[], (List.append_nil _).trans all⟩, fun _ _ => ⟨all, ?_⟩, ?_⟩
    · exact fun id external demanded => (sound.called id external).1
        (isSome_of_demanded inOrder sound all result demanded)
    · intro before c after e (split : p.source.2 = _) failed
      have mem : c ∈ p.source.2 := by
        rw [split]
        exact List.mem_append_right _ List.mem_cons_self
      obtain ⟨v, answered⟩ := sound.answered c mem
      cases failed.symm.trans answered
  | error e =>
    obtain ⟨stopped, order⟩ := proceeds
    obtain ⟨made, once, demanded⟩ := stopped.calls
    refine ⟨made, once, demanded, order, nofun, fun before c after e' split failed => ?_⟩
    obtain ⟨rfl, rfl⟩ := stopped.last split failed
    exact ⟨rfl, rfl⟩

namespace Lambda

/-- External functions run in order and at most once, whatever they answer and do, in each
evaluation of an extracted trace; the calls that the result does not need are told apart by what
operations read; and with the answers of the functions themselves the evaluation observed is the one
that runs. -/
theorem orderly_of_extract {τ : Type} {f : Lambda} {t : Trace} (extracted : f.extract = .ok t)
    (behaviour : Behaviour τ) (source : EntitySource τ) (arguments : List Value) (s : τ) :
    (t.observe behaviour source arguments s).Orderly t ∧
      (∀ id, id ∈ t.independentCalls ↔ t.IsExternal id ∧ ¬t.Needs t.result id) ∧
      t.independentCalls.Pairwise (· < ·) ∧
      ∀ calls,
        let o := t.observe .own source arguments s
        let r := (Evaluation.ofTrace source t arguments).run { calls, source := s }
        r.1 = o.result ∧ r.2.memo = o.memo ∧
          r.2.calls = (o.log.map Call.toInvocation).reverse ++ calls := by
  have inOrder := scoped_of_extract extracted
  exact ⟨Trace.observe_orderly inOrder behaviour source arguments s,
    fun _ => Trace.mem_independentCalls inOrder, t.pairwise_independentCalls,
    fun calls => t.run_ofTrace source arguments calls s⟩

/-- `fun c => { audit(c); if vip(c) then score(c) else 0 }` -/
def scoring : Lambda :=
  let external name : ExternalFunction := ⟨name, fun _ => .ok .null⟩
  .traced 1 [.call (external "audit") (.param 0) []]
    (.branch (.call (external "vip") (.param 0) []) (.call (external "score") (.param 0) [])
      (.const (.int 0)))

/-- Answers whether it is called for the first time. -/
def whetherFirst : Behaviour Nat := fun _ _ _ calls => (.ok (.bool (calls = 0)), calls + 1)

/-- The audit runs although its result is not used; the score of the arm not taken does not. -/
theorem orderly_scoring : ∃ t, scoring.extract = .ok t ∧
    (t.observe whetherFirst noEntities [.int 7] 0).Orderly t ∧
    t.independentCalls = [1] ∧
    (t.observe whetherFirst noEntities [.int 7] 0).log.map (fun c => (c.id, c.name)) =
      [(1, "audit"), (2, "vip")] := by
  refine ⟨_, rfl, (orderly_of_extract (f := scoring) rfl _ _ _ _).1, ?_, ?_⟩
  · decide
  · decide

end Lambda
end EntityQuery
