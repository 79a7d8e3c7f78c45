import EntityQuery.Lambda.Evaluation
import Mathlib.Data.List.Forall2

/-! What the results of evaluations satisfy, from any progress that has an invariant. -/
namespace EntityQuery.Evaluation

variable {τ α β : Type}

theorem run_bind_ok {x : Evaluation τ α} {f : α → Evaluation τ β} {p p' : Progress τ} {a : α}
    (h : x.run p = (.ok a, p')) : (x >>= f).run p = (f a).run p' := by
  rw [ExceptT.run_bind]
  show StateT.bind _ _ p = _
  simp only [StateT.bind, h]
  rfl

theorem run_bind_error {x : Evaluation τ α} {f : α → Evaluation τ β} {p p' : Progress τ}
    {e : EvalError} (h : x.run p = (.error e, p')) : (x >>= f).run p = (.error e, p') := by
  rw [ExceptT.run_bind]
  show StateT.bind _ _ p = _
  simp only [StateT.bind, h]
  rfl

/-- Keeps the invariant, also when it fails, and has only results that satisfy `Q`. -/
def Yields (inv : Progress τ → Prop) (x : Evaluation τ α) (Q : α → Prop) : Prop :=
  ∀ p, inv p → inv (x.run p).2 ∧ ∀ a, (x.run p).1 = .ok a → Q a

variable {inv : Progress τ → Prop} {Q : α → Prop} {R : β → Prop}

theorem Yields.mono {Q' : α → Prop} {x : Evaluation τ α} (h : Yields inv x Q)
    (weaker : ∀ a, Q a → Q' a) : Yields inv x Q' :=
  fun p hp => ⟨(h p hp).1, fun a ha => weaker a ((h p hp).2 a ha)⟩

theorem yields_pure {a : α} (h : Q a) : Yields inv (pure a) Q :=
  fun _ hp => ⟨hp, fun _ ha => Except.ok.inj ha ▸ h⟩

theorem yields_throw (e : EvalError) : Yields inv (throw e) Q :=
  fun _ hp => ⟨hp, fun _ ha => by cases ha⟩

/-- An operation on values has no effect. -/
theorem yields_lift {r : Except EvalError α} (h : ∀ a, r = .ok a → Q a) :
    Yields inv (liftM r) Q :=
  fun _ hp => ⟨by cases r <;> exact hp, fun _ ha => h _ (by cases r <;> exact ha)⟩

theorem yields_bind {x : Evaluation τ α} {f : α → Evaluation τ β} (hx : Yields inv x Q)
    (hf : ∀ a, Q a → Yields inv (f a) R) : Yields inv (x >>= f) R := by
  intro p hp
  obtain ⟨kept, result⟩ := hx p hp
  rcases hrun : x.run p with ⟨r, p'⟩
  rw [hrun] at kept result
  cases r with
  | ok a =>
    rw [run_bind_ok hrun]
    exact hf a (result a rfl) p' kept
  | error e =>
    rw [run_bind_error hrun]
    exact ⟨kept, fun _ h => by cases h⟩

theorem yields_get : Yields inv get inv :=
  fun _ hp => ⟨hp, fun _ ha => Except.ok.inj ha ▸ hp⟩

theorem yields_modify {g : Progress τ → Progress τ} (h : ∀ p, inv p → inv (g p)) :
    Yields inv (modify g) fun _ => True :=
  fun p hp => ⟨h p hp, fun _ _ => trivial⟩

/-- Evaluations one after another yield what each of them yields. -/
theorem yields_mapM {P : β → α → Prop} {f : β → Evaluation τ α} {l : List β}
    (h : ∀ b ∈ l, Yields inv (f b) (P b)) : Yields inv (l.mapM f) (List.Forall₂ P l) := by
  induction l with
  | nil => exact yields_pure .nil
  | cons b l ih =>
    rw [List.mapM_cons]
    refine yields_bind (h b List.mem_cons_self) fun a ha => ?_
    refine yields_bind (ih fun b hb => h b (List.mem_cons_of_mem _ hb)) fun as has => ?_
    exact yields_pure (.cons ha has)

end EntityQuery.Evaluation
