import EntityQuery.Proofs.Lambda.Recording
import Mathlib.Data.List.Forall2

/-! Handles of other extractions. What is called on such a handle is recorded elsewhere and gives
another one. An extraction fails exactly when one is let into the recording at hand: as an operand
of an operation on a handle of this extraction, or as the result. -/
namespace EntityQuery
namespace Term

/-- The term that an operation is called on. -/
def receiver? : Term → Option Term
  | field base _ | element base _ | unary _ base | apply _ base | stream base | streamOf base _ =>
    some base
  | tuple first _ | call _ first _ => some first
  | branch condition _ _ => some condition
  | binary _ left _ => some left
  | param _ | shared _ | const _ | captured _ _ | foreign => none

/-- The operands of an operation besides the one that it is called on. -/
def operands : Term → List Term
  | tuple _ rest | call _ _ rest => rest
  | branch _ whenTrue whenFalse => [whenTrue, whenFalse]
  | binary _ _ right => [right]
  | _ => []

/-- With the first `n` preparatory terms at hand, the term is a handle of another extraction: one
from the start, or what an operation on one gives. -/
inductive IsForeign (preparation : List Term) : Nat → Term → Prop
  | handle {n : Nat} : IsForeign preparation n .foreign
  | prepared {n i : Nat} {t : Term} (before : i < n) (found : preparation[i]? = some t)
    (foreign : IsForeign preparation i t) : IsForeign preparation n (.shared i)
  | outcome {n : Nat} {t base : Term} (on : t.receiver? = some base)
    (foreign : IsForeign preparation n base) : IsForeign preparation n t

/-- Somewhere in the term an operation on a handle of this extraction has a handle of another one as
an operand. -/
inductive Leaks (preparation : List Term) (n : Nat) : Term → Prop
  | here {t base operand : Term} (on : t.receiver? = some base)
    (own : ¬IsForeign preparation n base) (mem : operand ∈ t.operands)
    (foreign : IsForeign preparation n operand) : Leaks preparation n t
  | receiver {t base : Term} (on : t.receiver? = some base) (leaks : Leaks preparation n base) :
    Leaks preparation n t
  | operand {t operand : Term} (mem : operand ∈ t.operands) (leaks : Leaks preparation n operand) :
    Leaks preparation n t

section Shapes

variable {preparation : List Term} {n : Nat} {t base : Term}

theorem isForeign_iff (on : t.receiver? = some base) :
    IsForeign preparation n t ↔ IsForeign preparation n base := by
  refine ⟨fun h => ?_, .outcome on⟩
  cases h with
  | outcome on' foreign => exact Option.some.inj (on.symm.trans on') ▸ foreign
  | _ => cases on

theorem isForeign_shared {i : Nat} : IsForeign preparation n (.shared i) ↔
    i < n ∧ ∃ t, preparation[i]? = some t ∧ IsForeign preparation i t := by
  constructor
  · rintro (_ | ⟨before, found, foreign⟩ | ⟨⟨⟩, _⟩)
    exact ⟨before, _, found, foreign⟩
  · rintro ⟨before, t, found, foreign⟩
    exact .prepared before found foreign

theorem leaks_iff (on : t.receiver? = some base) : Leaks preparation n t ↔
    Leaks preparation n base ∨ (∃ o ∈ t.operands, Leaks preparation n o) ∨
      ¬IsForeign preparation n base ∧ ∃ o ∈ t.operands, IsForeign preparation n o := by
  constructor
  · rintro (⟨on', own, mem, foreign⟩ | ⟨on', leaks⟩ | ⟨mem, leaks⟩)
    · obtain rfl := Option.some.inj (on.symm.trans on')
      exact .inr (.inr ⟨own, _, mem, foreign⟩)
    · obtain rfl := Option.some.inj (on.symm.trans on')
      exact .inl leaks
    · exact .inr (.inl ⟨_, mem, leaks⟩)
  · rintro (leaks | ⟨o, mem, leaks⟩ | ⟨own, o, mem, foreign⟩)
    · exact .receiver on leaks
    · exact .operand mem leaks
    · exact .here on own mem foreign

/-- What is no operation lets nothing in. -/
theorem not_leaks (none : t.receiver? = none) (alone : t.operands = []) :
    ¬Leaks preparation n t := by
  rintro (⟨on, -, -, -⟩ | ⟨on, -⟩ | ⟨mem, -⟩)
  · cases none.symm.trans on
  · cases none.symm.trans on
  · rw [alone] at mem
    cases mem

end Shapes

end Term

/-! ### The mark on a recording -/

namespace Recorder

variable {α β : Type} {x : Recorder α} {f : α → Recorder β} {p p' : Prop} {Q Q' : α → Prop}
  {R : β → Prop}

/-- Sets the mark of a leak exactly in the case `p`, and gives what satisfies `Q`. -/
def Marks (x : Recorder α) (p : Prop) (Q : α → Prop) : Prop :=
  ∀ r : Recording, ((x.run r).2.leaked ↔ r.leaked ∨ p) ∧ Q (x.run r).1

theorem Marks.iff (h : Marks x p Q) (same : p ↔ p') (weaker : ∀ a, Q a → Q' a) : Marks x p' Q' :=
  fun r => ⟨(h r).1.trans (or_congr_right same), weaker _ (h r).2⟩

theorem marks_pure {a : α} (h : Q a) : Marks (pure a) False Q :=
  fun _ => ⟨(iff_of_eq (or_false _)).symm, h⟩

theorem Marks.bind (first : Marks x p Q) (next : ∀ a, Q a → Marks (f a) p' R) :
    Marks (x >>= f) (p ∨ p') R := by
  intro r
  obtain ⟨marked, result⟩ := first r
  obtain ⟨marked', result'⟩ := next _ result (x.run r).2
  exact ⟨marked'.trans ((or_congr_left marked).trans or_assoc), result'⟩

theorem marks_push (op : Op) : Marks (push op) False fun _ => True :=
  fun _ => ⟨(iff_of_eq (or_false _)).symm, trivial⟩

theorem marks_record (op : Op) : Marks (record op) False fun o => o ≠ .foreign :=
  ((marks_push op).bind fun _ _ => marks_pure nofun).iff (iff_of_eq (or_false _)) fun _ h => h

/-- Only a foreign operand is marked when it is lifted. -/
theorem marks_lift {o : Operand} (h : o = .foreign ↔ p) : Marks (lift o) p fun _ => True := by
  cases o with
  | foreign =>
    have leak : Marks (modify fun r : Recording => { r with leaked := true }) True fun _ => True :=
      fun _ => ⟨iff_of_true rfl (.inr trivial), trivial⟩
    refine (leak.bind fun _ _ => marks_push (.const .null)).iff ?_ fun _ h => h
    exact (iff_of_eq (or_false _)).trans (iff_of_true trivial (h.1 rfl))
  | handle id =>
    exact (marks_pure trivial).iff (iff_of_false not_false (h.not.1 nofun)) fun _ h => h
  | const v => exact (marks_push _).iff (iff_of_false not_false (h.not.1 nofun)) fun _ h => h
  | captured name v =>
    exact (marks_push _).iff (iff_of_false not_false (h.not.1 nofun)) fun _ h => h

theorem marks_mapM_lift {F : Term → Prop} {os : List Operand} {ts : List Term}
    (h : List.Forall₂ (fun o t => o = .foreign ↔ F t) os ts) :
    Marks (os.mapM lift) (∃ t ∈ ts, F t) fun _ => True := by
  induction h with
  | nil => exact (marks_pure trivial).iff (iff_of_false not_false (by simp)) fun _ h => h
  | cons first _ ih =>
    rw [List.mapM_cons]
    refine ((marks_lift first).bind fun id _ => ih.bind fun ids _ =>
      marks_pure (a := id :: ids) trivial).iff ?_ fun _ h => h
    rw [or_false, List.exists_mem_cons_iff]

/-- On a foreign handle nothing is recorded here. -/
theorem marks_onHandle {k : Nat → Recorder Operand} {base : Operand} {foreign : Prop}
    (h : base = .foreign ↔ foreign) (next : ∀ id, Marks (k id) p fun o => o ≠ .foreign) :
    Marks (onHandle base k) (¬foreign ∧ p) fun o => o = .foreign ↔ foreign := by
  have own (none : base ≠ .foreign) :
      Marks (lift base >>= k) (¬foreign ∧ p) fun o => o = .foreign ↔ foreign := by
    have absent : ¬foreign := h.not.1 none
    refine ((marks_lift (iff_of_false none not_false)).bind fun id _ => next id).iff ?_
      fun o ho => iff_of_false ho absent
    rw [false_or, and_iff_right absent]
  cases base with
  | foreign =>
    have there := h.1 rfl
    exact (marks_pure (iff_of_true rfl there)).iff
      (iff_of_false not_false fun absent => absent.1 there) fun _ h => h
  | handle id => exact own nofun
  | const v => exact own nofun
  | captured name v => exact own nofun

end Recorder

namespace Term

open Recorder

variable {preparation : List Term} {n : Nat}

/-- The foreign handles among the values of the first `n` preparatory terms. -/
def Knows (preparation : List Term) (n : Nat) (shared : List Operand) : Prop :=
  ∀ i, shared[i]? = some .foreign ↔ IsForeign preparation n (.shared i)

theorem marks_leaf {t : Term} {o : Operand} (none : t.receiver? = none) (alone : t.operands = [])
    (h : o = .foreign ↔ IsForeign preparation n t) :
    Marks (pure o) (Leaks preparation n t) fun o => o = .foreign ↔ IsForeign preparation n t :=
  (marks_pure h).iff (iff_of_false not_false (not_leaks none alone)) fun _ h => h

/-- What is recorded for an operation belongs where the term is that it is called on. -/
theorem marks_operation {t base : Term} {x : Recorder Operand} {p : Prop}
    (on : t.receiver? = some base)
    (marks : Marks x p fun o => o = .foreign ↔ IsForeign preparation n base)
    (same : p ↔ Leaks preparation n base ∨ (∃ o ∈ t.operands, Leaks preparation n o) ∨
      ¬IsForeign preparation n base ∧ ∃ o ∈ t.operands, IsForeign preparation n o) :
    Marks x (Leaks preparation n t) fun o => o = .foreign ↔ IsForeign preparation n t :=
  marks.iff (same.trans (leaks_iff on).symm) fun _ h => h.trans (isForeign_iff on).symm

mutual

theorem marks_record (scope : Scope) (knows : Knows preparation n scope.shared) :
    (t : Term) → Marks (t.record scope) (Leaks preparation n t)
      fun o => o = .foreign ↔ IsForeign preparation n t
  | param index => by
    refine marks_leaf rfl rfl (iff_of_false ?_ (by rintro (_ | _ | ⟨⟨⟩, _⟩)))
    split <;> exact nofun
  | shared index => by
    refine marks_leaf rfl rfl ?_
    rw [← knows index]
    cases scope.shared[index]? <;> simp
  | const _ | captured _ _ =>
    marks_leaf rfl rfl (iff_of_false nofun (by rintro (_ | _ | ⟨⟨⟩, _⟩)))
  | foreign => marks_leaf rfl rfl (iff_of_true rfl .handle)
  | field base _ | element base _ | streamOf base _ | unary _ base | apply _ base
  | stream base => by
    refine marks_operation rfl ((marks_record scope knows base).bind fun b hb =>
      marks_onHandle hb fun _ => Recorder.marks_record _) ?_
    simp [operands]
  | tuple first rest | call _ first rest => by
    refine marks_operation rfl ((marks_record scope knows first).bind fun a ha =>
      (marks_recordAll scope knows rest).bind fun others hothers => marks_onHandle ha fun _ =>
        (marks_mapM_lift hothers).bind fun _ _ => Recorder.marks_record _) ?_
    rw [or_false]
    rfl
  | branch condition whenTrue whenFalse => by
    refine marks_operation rfl ((marks_record scope knows condition).bind fun c hc =>
      (marks_record scope knows whenTrue).bind fun a ha =>
        (marks_record scope knows whenFalse).bind fun b hb => marks_onHandle hc fun _ =>
          (marks_lift ha).bind fun _ _ => (marks_lift hb).bind fun _ _ =>
            Recorder.marks_record _) ?_
    simp [operands, or_assoc]
  | binary _ left right => by
    refine marks_operation rfl ((marks_record scope knows left).bind fun a ha =>
      (marks_record scope knows right).bind fun b hb => marks_onHandle ha fun _ =>
        (marks_lift hb).bind fun _ _ => Recorder.marks_record _) ?_
    simp [operands]

theorem marks_recordAll (scope : Scope) (knows : Knows preparation n scope.shared) :
    (ts : List Term) → Marks (recordAll scope ts) (∃ t ∈ ts, Leaks preparation n t)
      fun os => List.Forall₂ (fun o t => o = .foreign ↔ IsForeign preparation n t) os ts
  | [] => (marks_pure .nil).iff (iff_of_false not_false (by simp)) fun _ h => h
  | t :: ts => by
    refine ((marks_record scope knows t).bind fun first hfirst =>
      (marks_recordAll scope knows ts).bind fun rest hrest =>
        marks_pure (.cons hfirst hrest)).iff ?_ fun _ h => h
    rw [or_false, List.exists_mem_cons_iff]

end

end Term

namespace Lambda

open Recorder Term

variable {preparation : List Term}

/-- The body of a lambda lets a handle of another extraction in. -/
inductive LetsIn (preparation : List Term) (body : Term) : Prop
  | prepared {i : Nat} {t : Term} (found : preparation[i]? = some t)
    (leaks : Leaks preparation i t)
  | within (leaks : Leaks preparation preparation.length body)
  | returned (foreign : IsForeign preparation preparation.length body)

/-- The preparatory terms are taken up one by one. -/
theorem knows_concat {shared : List Operand} {o : Operand} {t : Term}
    (knows : Knows preparation shared.length shared) (found : preparation[shared.length]? = some t)
    (foreign : o = .foreign ↔ IsForeign preparation shared.length t) :
    Knows preparation (shared.length + 1) (shared ++ [o]) := by
  intro i
  rw [isForeign_shared]
  rcases Nat.lt_trichotomy i shared.length with before | rfl | behind
  · rw [List.getElem?_append_left before, knows i, isForeign_shared]
    simp [before, Nat.lt_succ_of_lt before]
  · rw [List.getElem?_concat_length]
    simp [found, foreign]
  · rw [List.getElem?_eq_none (by rw [List.length_append]; exact behind)]
    simp [Nat.not_lt.2 (Nat.succ_le_of_lt behind)]

theorem marks_recordShared (arity : Nat) {shared : List Operand} {done rest : List Term}
    (split : preparation = done ++ rest) (sofar : shared.length = done.length)
    (knows : Knows preparation shared.length shared) :
    Marks (recordShared arity shared rest)
      (∃ i t, done.length ≤ i ∧ preparation[i]? = some t ∧ Leaks preparation i t)
      (Knows preparation preparation.length) := by
  induction rest generalizing shared done with
  | nil =>
    rw [List.append_nil] at split
    subst split
    refine (marks_pure (sofar ▸ knows)).iff (iff_of_false not_false ?_) fun _ h => h
    rintro ⟨i, t, behind, found, -⟩
    exact Nat.not_lt.2 behind (List.getElem?_eq_some_iff.1 found).1
  | cons t rest ih =>
    have found : preparation[shared.length]? = some t := by simp [split, sofar]
    have later (o : Operand) (ho : o = .foreign ↔ IsForeign preparation shared.length t) :
        Marks (recordShared arity (shared ++ [o]) rest)
          (∃ i u, (done ++ [t]).length ≤ i ∧ preparation[i]? = some u ∧ Leaks preparation i u)
          (Knows preparation preparation.length) := by
      refine ih (by simp [split]) (by simp [sofar]) ?_
      rw [List.length_append]
      exact knows_concat knows found ho
    refine ((Term.marks_record ⟨arity, shared⟩ knows t).bind later).iff ?_ fun _ h => h
    rw [sofar] at found ⊢
    rw [List.length_append]
    constructor
    · rintro (leaks | ⟨i, u, behind, found', leaks⟩)
      · exact ⟨_, t, Nat.le_refl _, found, leaks⟩
      · exact ⟨i, u, Nat.le_of_succ_le behind, found', leaks⟩
    · rintro ⟨i, u, behind, found', leaks⟩
      rcases Nat.eq_or_lt_of_le behind with rfl | behind
      · exact .inl (Option.some.inj (found.symm.trans found') ▸ leaks)
      · exact .inr ⟨i, u, behind, found', leaks⟩

theorem leaked_recordBody (arity : Nat) (preparation : List Term) (body : Term) :
    ((recordBody arity preparation body).run {}).2.leaked ↔ LetsIn preparation body := by
  have rest : Marks (do
      let shared ← recordShared arity [] preparation
      lift (← body.record ⟨arity, shared⟩)) (LetsIn preparation body) fun _ => True := by
    have start : Knows preparation 0 [] := fun i => by simp [isForeign_shared]
    refine ((marks_recordShared arity (List.nil_append preparation).symm rfl start).bind
      fun shared knows => (Term.marks_record ⟨arity, shared⟩ knows body).bind
        fun _ ho => marks_lift ho).iff ?_ fun _ h => h
    constructor
    · rintro (⟨i, t, -, found, leaks⟩ | leaks | foreign)
      · exact .prepared found leaks
      · exact .within leaks
      · exact .returned foreign
    · rintro (⟨found, leaks⟩ | leaks | foreign)
      · exact .inl ⟨_, _, Nat.zero_le _, found, leaks⟩
      · exact .inr (.inl leaks)
      · exact .inr (.inr foreign)
  have marked := (rest
    (((List.range arity).forM fun index => discard (push (.param index))).run {}).2).1
  refine marked.trans ?_
  rw [run_parameters]
  exact or_iff_right Bool.false_ne_true

end Lambda
end EntityQuery
