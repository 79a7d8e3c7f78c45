import EntityQuery.Proofs.Expr.Formed
import EntityQuery.Proofs.Expr.Value

/-! Flattening and nesting are inverse: a tuple of expressions has the tuple of their values, and a
component of it has the value in its place. -/
namespace EntityQuery

namespace Nesting

theorem build_group (parts : List Nesting) (row : Row) :
    ((group parts).build row).1 = .tuple (buildAll parts row).1 := rfl

mutual

/-- A nesting takes its columns from the front. -/
theorem build_snd : (n : Nesting) → (row : Row) → (n.build row).2 = row.drop n.width
  | leaf, [] => rfl
  | leaf, _ :: _ => rfl
  | group parts, row => by simpa [build, width] using buildAll_snd parts row

theorem buildAll_snd :
    (parts : List Nesting) → (row : Row) → (buildAll parts row).2 = row.drop (totalWidth parts)
  | [], row => by simp [buildAll, totalWidth]
  | part :: parts, row => by
    simp only [buildAll, totalWidth]
    rw [buildAll_snd parts, build_snd part, List.drop_drop]

end

/-- The columns of the first part, and those of the others. -/
theorem exists_split {part : Nesting} {parts : List Nesting} {row : Row}
    (h : row.length = totalWidth (part :: parts)) : ∃ own others, row = own ++ others ∧
      own.length = part.width ∧ others.length = totalWidth parts := by
  rw [totalWidth] at h
  refine ⟨row.take part.width, row.drop part.width, (List.take_append_drop _ _).symm, ?_, ?_⟩
  · rw [List.length_take]
    omega
  · rw [List.length_drop]
    omega

mutual

/-- Columns after its own make no difference to a nesting. -/
theorem build_append : (n : Nesting) → (row rest : Row) → row.length = n.width →
    (n.build (row ++ rest)).1 = (n.build row).1
  | leaf, [v], _, _ => rfl
  | leaf, [], _, h => by simp [width] at h
  | leaf, _ :: _ :: _, _, h => by simp [width] at h
  | group parts, row, rest, h => by
    rw [build_group, build_group, buildAll_append parts row rest h]

theorem buildAll_append : (parts : List Nesting) → (row rest : Row) →
    row.length = totalWidth parts → (buildAll parts (row ++ rest)).1 = (buildAll parts row).1
  | [], _, _, _ => by simp [buildAll]
  | part :: parts, row, rest, h => by
    obtain ⟨own, others, rfl, hOwn, hOthers⟩ := exists_split h
    simp only [buildAll, build_snd, List.append_assoc]
    rw [build_append part own _ hOwn, build_append part own _ hOwn, ← hOwn,
      List.drop_left, List.drop_left, buildAll_append parts others rest hOthers]

end

mutual

/-- The leaves of a value that is nested so. -/
def leaves? : Nesting → Value → Option Row
  | leaf, v => some [v]
  | group parts, .tuple items => leavesAll? parts items
  | group _, _ => none

def leavesAll? : List Nesting → List Value → Option Row
  | [], [] => some []
  | part :: parts, item :: items => do some ((← leaves? part item) ++ (← leavesAll? parts items))
  | _, _ => none

end

mutual

/-- What is built from columns has them for leaves. -/
theorem leaves?_build :
    (n : Nesting) → (row : Row) → row.length = n.width → n.leaves? (n.build row).1 = some row
  | leaf, [_], _ => rfl
  | leaf, [], h | leaf, _ :: _ :: _, h => by simp [width] at h
  | group parts, row, h => by rw [build_group, leaves?, leavesAll?_build parts row h]

theorem leavesAll?_build : (parts : List Nesting) → (row : Row) →
    row.length = totalWidth parts → leavesAll? parts (buildAll parts row).1 = some row
  | [], row, h => by rw [List.length_eq_zero_iff.1 h]; rfl
  | part :: parts, row, h => by
    obtain ⟨own, others, rfl, hOwn, hOthers⟩ := exists_split h
    have first := leaves?_build part own hOwn
    have rest := leavesAll?_build parts others hOthers
    simp only [buildAll, build_snd, build_append part own _ hOwn]
    rw [← hOwn, List.drop_left, leavesAll?, first, rest]
    rfl

end

mutual

/-- A value is built from its leaves. -/
theorem build_of_leaves? : (n : Nesting) → (v : Value) → (row : Row) → n.leaves? v = some row →
    row.length = n.width ∧ (n.build row).1 = v
  | leaf, v, row, h => by
    obtain rfl := Option.some.inj h
    exact ⟨rfl, rfl⟩
  | group parts, v, row, h => by
    cases v with
    | tuple items =>
      obtain ⟨long, built⟩ := buildAll_of_leavesAll? parts items row h
      exact ⟨long, by rw [build_group, built]⟩
    | _ => cases h

theorem buildAll_of_leavesAll? : (parts : List Nesting) → (items : List Value) → (row : Row) →
    leavesAll? parts items = some row →
    row.length = totalWidth parts ∧ (buildAll parts row).1 = items
  | [], [], row, h => by
    obtain rfl := Option.some.inj h
    exact ⟨rfl, rfl⟩
  | [], _ :: _, row, h | _ :: _, [], row, h => by cases h
  | part :: parts, item :: items, row, h => by
    rw [leavesAll?] at h
    obtain ⟨own, hOwn, h⟩ := Option.bind_eq_some_iff.1 h
    obtain ⟨others, hOthers, h⟩ := Option.bind_eq_some_iff.1 h
    obtain rfl := Option.some.inj h
    obtain ⟨width, first⟩ := build_of_leaves? part item own hOwn
    obtain ⟨widths, rest⟩ := buildAll_of_leavesAll? parts items others hOthers
    refine ⟨by rw [List.length_append, width, widths, totalWidth], ?_⟩
    simp only [buildAll, build_snd, build_append part own _ width]
    rw [← width, List.drop_left, first, rest]

end

/-- What is built from columns keeps all of them. -/
theorem build_injective (n : Nesting) (row row' : Row) (h : row.length = n.width)
    (h' : row'.length = n.width) (same : (n.build row).1 = (n.build row').1) : row = row' := by
  have leaves := leaves?_build n row h
  rw [same, leaves?_build n row' h'] at leaves
  exact (Option.some.inj leaves).symm

/-- Each part is built from the columns after those of the parts before it. -/
theorem getElem?_buildAll (parts : List Nesting) (row : Row) (i : Nat) :
    (buildAll parts row).1[i]? =
      parts[i]?.map fun part => (part.build (row.drop (totalWidth (parts.take i)))).1 := by
  induction parts generalizing row i with
  | nil => simp [buildAll]
  | cons part parts ih =>
    cases i with
    | zero => simp [buildAll, totalWidth]
    | succ i => simp [buildAll, totalWidth, ih, build_snd, Nat.add_comm]

end Nesting

namespace Expr

variable {row : SourceRow}

theorem values_append {es fs : List Expr} {vs ws : List Value} (hes : values row es = .ok vs)
    (hfs : values row fs = .ok ws) : values row (es ++ fs) = .ok (vs ++ ws) := by
  rw [values_eq_ok] at *
  exact List.rel_append hes hfs

theorem length_of_values {es : List Expr} {vs : List Value} (h : values row es = .ok vs) :
    vs.length = es.length :=
  (values_eq_ok.1 h).length_eq.symm

/-- The value of an expression is built from those of its columns. -/
theorem value_eq_build (e : Expr) {v : Value} :
    e.value row = .ok v ↔
      ∃ cols, values row e.columns = .ok cols ∧ (e.nesting.build cols).1 = v := by
  cases e with
  | tuple es n => exact value_tuple
  | _ =>
    simp only [columns, nesting]
    constructor
    · intro h
      exact ⟨[v], values_cons.2 ⟨v, [], h, rfl, rfl⟩, rfl⟩
    · rintro ⟨cols, hcols, hv⟩
      obtain ⟨w, ws, hw, hws, rfl⟩ := values_cons.1 hcols
      cases hws
      cases hv
      exact hw

/-- The columns of several expressions hold the values of all of them. -/
theorem buildAll_columns {m : Metamodel} {sources : List String} {items : List Expr}
    {vs : List Value} (formed : ∀ e ∈ items, Formed m sources e)
    (h : List.Forall₂ (fun e v => e.value row = .ok v) items vs) :
    ∃ cols, values row (items.flatMap columns) = .ok cols ∧
      (Nesting.buildAll (items.map nesting) cols).1 = vs := by
  induction h with
  | nil => exact ⟨[], rfl, rfl⟩
  | @cons e v items vs he _ ih =>
    obtain ⟨own, hOwn, hv⟩ := e.value_eq_build.1 he
    obtain ⟨rest, hRest, hvs⟩ := ih fun e he => formed e (List.mem_cons_of_mem _ he)
    have width : own.length = e.nesting.width := by
      rw [length_of_values hOwn, (formed e List.mem_cons_self).width_nesting]
    refine ⟨own ++ rest, values_append hOwn hRest, ?_⟩
    simp only [List.map_cons, Nesting.buildAll, Nesting.build_snd, ← width, List.drop_left, hvs]
    rw [Nesting.build_append _ _ _ width, hv]

/-- A tuple of expressions has the tuple of their values. -/
theorem value_tupleOf {m : Metamodel} {sources : List String} {items : List Expr}
    {vs : List Value} (formed : ∀ e ∈ items, Formed m sources e)
    (h : List.Forall₂ (fun e v => e.value row = .ok v) items vs) :
    (tupleOf items).value row = .ok (.tuple vs) := by
  obtain ⟨cols, hcols, hvs⟩ := buildAll_columns formed h
  exact value_tuple.2 ⟨cols, hcols, by rw [Nesting.build_group, hvs]⟩

theorem values_drop {es : List Expr} {vs : List Value} (h : values row es = .ok vs) (n : Nat) :
    values row (es.drop n) = .ok (vs.drop n) :=
  values_eq_ok.2 (List.forall₂_drop n (values_eq_ok.1 h))

theorem values_take {es : List Expr} {vs : List Value} (h : values row es = .ok vs) (n : Nat) :
    values row (es.take n) = .ok (vs.take n) :=
  values_eq_ok.2 (List.forall₂_take n (values_eq_ok.1 h))

/-- A component of a tuple has the component of its value. -/
theorem value_element? {m : Metamodel} {sources : List String} {e c : Expr} {index : Nat}
    {v : Value} (formed : Formed m sources e) (hc : e.element? index = some c)
    (hv : e.value row = .ok v) : ∃ w, v.element? index = some w ∧ c.value row = .ok w := by
  cases formed with
  | @tuple es parts members flat fits =>
    obtain ⟨cols, hcols, rfl⟩ := value_tuple.1 hv
    simp only [element?, Option.bind_eq_bind, Option.bind_eq_some_iff] at hc
    obtain ⟨part, hpart, hc⟩ := hc
    have rest := values_drop hcols (Nesting.totalWidth (parts.take index))
    have component : ((Nesting.group parts).build cols).1.element? index =
        some (part.build (cols.drop (Nesting.totalWidth (parts.take index)))).1 := by
      rw [Nesting.build_group, Value.element?, Nesting.getElem?_buildAll, hpart]
      rfl
    refine ⟨_, component, ?_⟩
    cases part with
    | leaf =>
      rw [part?, ← List.head?_drop] at hc
      obtain ⟨others, hothers⟩ := List.head?_eq_some_iff.1 hc
      rw [hothers] at rest
      obtain ⟨w, ws, hw, -, hcols⟩ := values_cons.1 rest
      rw [hcols]
      exact hw
    | group inner =>
      rw [part?] at hc
      split at hc
      · next long =>
        obtain rfl := Option.some.inj hc
        refine value_tuple.2 ⟨_, values_take rest _, ?_⟩
        have width : ((cols.drop (Nesting.totalWidth (parts.take index))).take
            (Nesting.totalWidth inner)).length = (Nesting.group inner).width := by
          have := length_of_values hcols
          simp [Nesting.width]
          omega
        exact (Nesting.build_append _ _ _ width).symm.trans (by rw [List.take_append_drop])
      · cases hc
  | _ => simp [element?] at hc

end Expr
end EntityQuery
