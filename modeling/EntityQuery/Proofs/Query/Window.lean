import EntityQuery.Query.Window
import Mathlib.Data.List.Basic

/-! What windows keep. A window that is narrowed counts from the first row that it kept before, so
the pages of a window are parts of what it keeps. -/
namespace EntityQuery

namespace Window

variable {α β : Type}

theorem slice_map (w : Window) (f : α → β) (rows : List α) :
    w.slice (rows.map f) = (w.slice rows).map f := by
  unfold slice
  cases w.limit <;> simp

theorem slice_of_isUnbounded {w : Window} (h : w.isUnbounded) (rows : List α) :
    w.slice rows = rows := by
  simp only [isUnbounded, Bool.and_eq_true, beq_iff_eq, Option.isNone_iff_eq_none] at h
  rw [slice, h.1, h.2]
  rfl

theorem mem_of_mem_slice {w : Window} {rows : List α} {a : α} (h : a ∈ w.slice rows) :
    a ∈ rows := by
  unfold slice at h
  cases hl : w.limit with
  | none => exact List.mem_of_mem_drop (hl ▸ h)
  | some n => exact List.mem_of_mem_drop (List.mem_of_mem_take (by simpa [hl] using h))

theorem toNat_min (m n : UInt64) : (min m n).toNat = min m.toNat n.toNat := by
  rw [show min m n = if m ≤ n then m else n from rfl, Nat.min_def]
  simp only [UInt64.le_iff_toNat_le]
  split <;> rfl

/-- A smaller limit counts from the same row. -/
theorem slice_limitTo (w : Window) (n : UInt64) (rows : List α) :
    (w.limitTo n).slice rows = (w.slice rows).take n.toNat := by
  unfold slice limitTo
  cases w.limit with
  | none => rfl
  | some l =>
    simp only [Option.map_some, Option.getD_some, toNat_min]
    rw [List.take_take, Nat.min_comm]

theorem isUnbounded_of_skipMore {w : Window} {n : UInt64} (h : (w.skipMore n).isUnbounded) :
    w.isUnbounded := by
  simp only [isUnbounded, skipMore, Bool.and_eq_true, beq_iff_eq, Option.isNone_map] at h ⊢
  obtain ⟨none, unlimited⟩ := h
  refine ⟨?_, unlimited⟩
  have total := congrArg UInt64.toNat none
  unfold UInt64.ofNatClamp at total
  split at total
  · have : w.skip.toNat + n.toNat = 0 := total
    exact UInt64.toNat_inj.1 (by simpa using by omega)
  · cases total

/-- Rows are skipped after those skipped before, unless the counts add up to more than there can
be and there are as many rows. -/
theorem slice_skipMore (w : Window) (n : UInt64) (rows : List α)
    (fits : w.skip.toNat + n.toNat < UInt64.size ∨ rows.length < UInt64.size) :
    (w.skipMore n).slice rows = (w.slice rows).drop n.toNat := by
  have skipped : rows.drop (UInt64.ofNatClamp (w.skip.toNat + n.toNat)).toNat =
      (rows.drop w.skip.toNat).drop n.toNat := by
    rw [List.drop_drop, UInt64.ofNatClamp]
    split
    · rfl
    · next large =>
      have short : rows.length < UInt64.size := fits.resolve_left large
      rw [List.drop_eq_nil_of_le, List.drop_eq_nil_of_le]
      · omega
      · exact Nat.le_of_lt_succ short
  unfold slice skipMore
  cases w.limit with
  | none => exact skipped
  | some l =>
    have left : (UInt64.ofNat (l.toNat - n.toNat)).toNat = l.toNat - n.toNat :=
      UInt64.toNat_ofNat_of_lt' (Nat.lt_of_le_of_lt (Nat.sub_le _ _) l.toNat_lt)
    simp only [Option.map_some, skipped, left]
    rw [List.drop_take]

theorem length_slice_le (w : Window) (rows : List α) : (w.slice rows).length ≤ rows.length := by
  unfold slice
  cases w.limit with
  | none => exact (List.drop_sublist _ rows).length_le
  | some n => exact ((List.take_sublist _ _).trans (List.drop_sublist _ rows)).length_le

theorem length_slice_le_limit {w : Window} {limit : UInt64} (h : w.limit = some limit)
    (rows : List α) : (w.slice rows).length ≤ limit.toNat := by
  simp only [slice, h, List.length_take]
  exact Nat.min_le_left _ _

theorem toNat_ofNatClamp (n : Nat) : (UInt64.ofNatClamp n).toNat = min n (UInt64.size - 1) := by
  rw [UInt64.ofNatClamp]
  split
  · rw [UInt64.toNat_ofNatLT]
    omega
  · change UInt64.size - 1 = _
    omega

/-- A page begins `offset` rows behind the first row of the window, as far as counts go. -/
theorem skip_page (w : Window) (offset length : UInt64) : (w.page offset length).skip.toNat =
    min (w.skip.toNat + offset.toNat) (UInt64.size - 1) := by
  rw [page, limitTo, skipMore, toNat_ofNatClamp]

/-- A page is as long as it is to be, or as what is left of the limit. -/
theorem limit_page (w : Window) (offset length : UInt64) :
    ∃ n : UInt64, (w.page offset length).limit = some n ∧
      n.toNat = match w.limit with
        | some limit => min length.toNat (limit.toNat - offset.toNat)
        | none => length.toNat := by
  refine ⟨_, rfl, ?_⟩
  rw [skipMore]
  cases w.limit with
  | none => rfl
  | some limit =>
    have bound : limit.toNat < UInt64.size := limit.toNat_lt
    have left : (UInt64.ofNat (limit.toNat - offset.toNat)).toNat = limit.toNat - offset.toNat :=
      UInt64.toNat_ofNat_of_lt' (Nat.lt_of_le_of_lt (Nat.sub_le _ _) bound)
    simp only [Option.map_some, Option.getD_some]
    rw [toNat_min, left, Nat.min_comm]

/-- A page of a window is a part of what the window keeps. -/
theorem slice_page (w : Window) (offset length : UInt64) {rows : List α}
    (short : rows.length < UInt64.size) :
    (w.page offset length).slice rows = ((w.slice rows).drop offset.toNat).take length.toNat := by
  rw [page, slice_limitTo, slice_skipMore _ _ _ (.inr short)]

end Window

end EntityQuery
