import Mathlib.Data.List.Forall2

/-! Computations that can fail. They succeed if all their parts do, and the first part that fails
decides the failure. -/
namespace EntityQuery

variable {ε ε' α β : Type}

/-- A computation that goes on after a success succeeds in both parts. -/
theorem bind_ok_iff {x : Except ε α} {f : α → Except ε β} {b : β} :
    (x >>= f) = .ok b ↔ ∃ a, x = .ok a ∧ f a = .ok b := by
  cases x <;> simp [bind, Except.bind]

theorem bind_error_iff {x : Except ε α} {f : α → Except ε β} {e : ε} :
    (x >>= f) = .error e ↔ x = .error e ∨ ∃ a, x = .ok a ∧ f a = .error e := by
  cases x <;> simp [bind, Except.bind]

theorem mapError_ok_iff {x : Except ε α} {f : ε → ε'} {a : α} :
    x.mapError f = .ok a ↔ x = .ok a := by
  cases x <;> simp [Except.mapError]

variable {f : α → Except ε β} {l : List α}

theorem mapM_ok_iff {bs : List β} :
    l.mapM f = .ok bs ↔ List.Forall₂ (fun a b => f a = .ok b) l bs := by
  induction l generalizing bs with
  | nil =>
    rw [List.mapM_nil, List.forall₂_nil_left_iff]
    exact ⟨fun h => (Except.ok.inj h).symm, fun h => congrArg Except.ok h.symm⟩
  | cons a l ih =>
    rw [List.mapM_cons, bind_ok_iff]
    simp only [bind_ok_iff, ih, List.forall₂_cons_left_iff]
    constructor
    · rintro ⟨b, first, others, rest, h⟩
      exact ⟨b, others, first, rest, (Except.ok.inj h).symm⟩
    · rintro ⟨b, others, first, rest, rfl⟩
      exact ⟨b, first, others, rest, rfl⟩

/-- The first failure ends the pass. -/
theorem mapM_error_iff {e : ε} : l.mapM f = .error e ↔
    ∃ before a after, l = before ++ a :: after ∧ f a = .error e ∧ ∀ b ∈ before, ∃ c, f b = .ok c := by
  induction l with
  | nil => simp [pure, Except.pure]
  | cons a l ih =>
    rw [List.mapM_cons, bind_error_iff]
    constructor
    · rintro (failed | ⟨b, first, later⟩)
      · exact ⟨[], a, l, rfl, failed, List.forall_mem_nil _⟩
      · rcases bind_error_iff.1 later with rest | ⟨bs, -, ⟨⟩⟩
        obtain ⟨before, c, after, rfl, failed, good⟩ := ih.1 rest
        exact ⟨a :: before, c, after, rfl, failed, List.forall_mem_cons.2 ⟨⟨b, first⟩, good⟩⟩
    · rintro ⟨before, c, after, split, failed, good⟩
      cases before with
      | nil =>
        obtain ⟨rfl, rfl⟩ := List.cons.inj split
        exact .inl failed
      | cons d before =>
        obtain ⟨rfl, rfl⟩ := List.cons.inj split
        obtain ⟨⟨b, first⟩, others⟩ := List.forall_mem_cons.1 good
        have rest := ih.2 ⟨before, c, after, rfl, failed, others⟩
        exact .inr ⟨b, first, bind_error_iff.2 (.inl rest)⟩

end EntityQuery
