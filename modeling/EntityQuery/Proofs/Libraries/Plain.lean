import EntityQuery.Libraries.Plain
import EntityQuery.Proofs.Libraries.Numerals
import EntityQuery.Proofs.Number.Reading
import EntityQuery.Proofs.Pipeline.StableSort
import Mathlib.Data.List.Induction
import Mathlib.Tactic.Tauto

/-! Plain libraries do what is relied on. -/
namespace EntityQuery.Libraries.Plain

instance : QueryNumerals where
  signed := queryLayout.writesSigned

instance : JsonNumerals where
  signed := jsonLayout.writesSigned
  marked {x} finite := by
    change '.' ∈ jsonLayout.write x ∨ 'e' ∈ jsonLayout.write x
    rw [Number.Layout.write_eq]
    unfold Number.isFinite at finite
    split at finite
    · next taken =>
      rw [taken]
      exact (jsonLayout.point_or_exponent_mem_decimal rfl (jsonLayout.magnitude _ _)).imp
        (List.mem_append_right _) (List.mem_append_right _)
    · cases finite
  injective _ _ same := jsonLayout.write_injective same

section Insertion

variable {α : Type} {order : α → α → Ordering}

theorem insert_perm (a : α) (l : List α) : (insert order a l).Perm (a :: l) := by
  induction l with
  | nil => exact .refl _
  | cons b l ih =>
    rw [insert]
    split
    · exact (ih.cons b).trans (.swap a b l)
    · exact .refl _

theorem insertionSort_perm (l : List α) : (insertionSort order l).Perm l := by
  have folded (sorted : List α) :
      (l.foldl (fun sorted a => insert order a sorted) sorted).Perm (l ++ sorted) := by
    induction l generalizing sorted with
    | nil => exact .refl _
    | cons a l ih =>
      exact (ih _).trans (((insert_perm a sorted).append_left l).trans List.perm_middle)
  have all := folded []
  rw [List.append_nil] at all
  exact (List.reverse_perm _).trans all

/-- An element is inserted above all that it does not precede. -/
theorem insert_eq {a : α} {l : List α} (h : OrderedOn order (a :: l))
    (sorted : l.Pairwise fun a b => (order b a).isLE) :
    ∃ upper lower, l = upper ++ lower ∧ insert order a l = upper ++ a :: lower ∧
      (∀ b ∈ upper, order a b = .lt) ∧ ∀ b ∈ lower, (order b a).isLE := by
  induction l with
  | nil => exact ⟨[], [], rfl, rfl, by simp, by simp⟩
  | cons b l ih =>
    obtain ⟨hb, rest⟩ := List.pairwise_cons.1 sorted
    rw [insert]
    split
    · next precedes =>
      obtain ⟨upper, lower, rfl, heq, above, below⟩ :=
        ih (h.mono fun c hc => by simp at hc ⊢; tauto) rest
      refine ⟨b :: upper, lower, rfl, by rw [heq]; rfl, ?_, below⟩
      intro c hc
      rcases List.mem_cons.1 hc with rfl | hc
      · exact eq_of_beq precedes
      · exact above c hc
    · next behind =>
      have le : (order b a).isLE := by
        rw [h.swap a (by simp) b (by simp)]
        have : order a b ≠ .lt := fun hlt => behind (beq_iff_eq.2 hlt)
        generalize order a b = o at this
        cases o <;> simp_all [Ordering.swap]
      refine ⟨[], b :: l, rfl, rfl, by simp, ?_⟩
      intro c hc
      rcases List.mem_cons.1 hc with rfl | hc
      · exact le
      · exact h.trans c (by simp [hc]) b (by simp) a (by simp) (hb c hc) le

theorem insertionSort_stable {l : List α} (h : OrderedOn order l) :
    StableSort order l (insertionSort order l) := by
  unfold insertionSort
  induction l using List.reverseRecOn with
  | nil => exact .refl .nil
  | append_singleton l a ih =>
    have stable := ih (h.mono fun b hb => List.mem_append_left _ hb)
    rw [List.foldl_append, List.foldl_cons, List.foldl_nil]
    generalize l.foldl (fun sorted a => insert order a sorted) [] = sorted at stable ⊢
    obtain ⟨upper, lower, rfl, heq, above, below⟩ := insert_eq
      (h.mono fun b hb => by
        have := stable.mem b
        simp at hb this ⊢
        tauto)
      (by simpa using List.pairwise_reverse.1 stable.sorted)
    rw [heq]
    simp only [List.reverse_append, List.reverse_cons, List.append_assoc, List.singleton_append]
      at stable ⊢
    exact stable.insert_last h (by simpa using below) (by simpa using above)

end Insertion

instance : SortsStably where
  perm := insertionSort_perm _
  stable := insertionSort_stable

end EntityQuery.Libraries.Plain
