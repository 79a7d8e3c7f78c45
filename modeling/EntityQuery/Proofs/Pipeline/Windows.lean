import EntityQuery.Libraries.Plain
import EntityQuery.Proofs.Pipeline.Distinct
import EntityQuery.Proofs.Query.Window

/-! Cuts of a list. Rows are skipped and limited either by one window that is narrowed with each cut
or by one step of a feed after another, and both keep the same rows. -/
namespace EntityQuery

/-- A clause that keeps a part of the rows by their numbers. -/
inductive Cut where
  | skip (n : UInt64)
  | limit (n : UInt64)

namespace Cut

variable {α : Type}

def narrow (w : Window) : Cut → Window
  | skip n => w.skipMore n
  | limit n => w.limitTo n

def step : Cut → Step
  | skip n => .skip n
  | limit n => .limit n

/-- The window that cuts make together of all rows. -/
def window (cuts : List Cut) : Window := cuts.foldl narrow {}

/-- What a cut keeps. -/
def keep (rows : List α) : Cut → List α
  | skip n => rows.drop n.toNat
  | limit n => rows.take n.toNat

theorem length_keep_le (cut : Cut) (rows : List α) : (cut.keep rows).length ≤ rows.length := by
  cases cut with
  | skip n => exact (List.drop_sublist _ _).length_le
  | limit n => exact (List.take_sublist _ _).length_le

/-- A window that is narrowed keeps of its rows what the cut keeps. -/
theorem slice_narrow (w : Window) (cut : Cut) {rows : List α} (short : rows.length < UInt64.size) :
    (narrow w cut).slice rows = cut.keep (w.slice rows) := by
  cases cut with
  | skip n => exact w.slice_skipMore n rows (.inr short)
  | limit n => exact w.slice_limitTo n rows

theorem slice_foldl_narrow (cuts : List Cut) (w : Window) {rows : List α}
    (short : rows.length < UInt64.size) :
    (cuts.foldl narrow w).slice rows = cuts.foldl keep (w.slice rows) := by
  induction cuts generalizing w with
  | nil => rfl
  | cons cut cuts ih => rw [List.foldl_cons, ih, slice_narrow w cut short, List.foldl_cons]

/-- The step of a cut keeps what the cut does. -/
theorem items_step [Libraries] (extents : Extents) (cut : Cut) (l : List Value) :
    cut.step.items extents (l.map .ok) = (cut.keep l).map .ok := by
  cases cut with
  | skip n => exact Item.skip_map_ok _ l
  | limit n => exact Item.limit_map_ok _ l

theorem itemsAll_steps [Libraries] (extents : Extents) (cuts : List Cut) (l : List Value) :
    Step.itemsAll extents (cuts.map step) (l.map .ok) = (cuts.foldl keep l).map .ok := by
  induction cuts generalizing l with
  | nil => rfl
  | cons cut cuts ih =>
    rw [List.map_cons, Step.itemsAll, List.foldl_cons, items_step, List.foldl_cons]
    exact ih _

/-- Each cut is asked for each of the rows at most, and for the end. -/
theorem requests_le [Libraries] (extents : Extents) (cuts : List Cut) (l : List Value) :
    Feed.requests extents (cuts.map step) (l.map .ok) ≤ cuts.length * (l.length + 1) := by
  induction cuts generalizing l with
  | nil => exact Nat.zero_le _
  | cons cut cuts ih =>
    have fewer := cut.length_keep_le l
    have later := (ih (cut.keep l)).trans (Nat.mul_le_mul_left _ (Nat.add_le_add_right fewer 1))
    rw [List.map_cons, Feed.requests, items_step, List.length_map, List.length_cons,
      Nat.succ_mul]
    omega

end Cut

namespace Window

variable {α σ : Type} {engine : Engine σ} {extents : Extents}
  {rest : Origin → List Item → σ → Prop}

/-- A window that is composed of cuts keeps the rows that the steps of these cuts keep one after
another, and a page of a window keeps the rows of the window from its offset on. There may be as
many rows as can be counted. -/
theorem composed_slice [Libraries] {rows : List α} (short : rows.length < UInt64.size)
    (cuts : List Cut) (element : α → Value) (steady : engine.Steady extents rest)
    (enough : (cuts.length + 1) * (rows.length + 1) ≤ engine.steps) {origin : Origin}
    {session : Session σ} (hs : rest origin (rows.map fun row => .ok (element row))
      session.executor) :
    Feed.Yields engine (Feed.ofSteps (cuts.map Cut.step) origin) session
      (((Cut.window cuts).slice rows).map element) ∧
    ∀ (w : Window) (offset length : UInt64),
      (w.page offset length).slice rows = ((w.slice rows).drop offset.toNat).take length.toNat := by
  constructor
  · have kept : cuts.foldl Cut.keep (rows.map element) =
        ((Cut.window cuts).slice rows).map element := by
      rw [← slice_map]
      refine (Cut.slice_foldl_narrow cuts {} ?_).symm.trans rfl
      rwa [List.length_map]
    have makes : Step.itemsAll extents (cuts.map Cut.step)
        ((rows.map element).map .ok) = (((Cut.window cuts).slice rows).map element).map .ok := by
      rw [Cut.itemsAll_steps, kept]
    have bound := Cut.requests_le extents cuts (rows.map element)
    refine Feed.yields_ofSteps steady makes ?_ (by rwa [List.map_map])
    rw [Nat.succ_mul] at enough
    rw [List.length_map, List.length_map] at *
    omega
  · intro w offset length
    exact w.slice_page offset length short

open Libraries.Plain in
/-- Of four numbers the third, although the limit is more than there are. -/
theorem composed_slice_third :
    Feed.Yields { executor := Pipeline.twoCustomersExecutor, dialect := .jpql }
      (Feed.ofSteps [.skip 1, .limit 18446744073709551615, .skip 1, .limit 1]
        (.items ([1, 2, 3, 4].map fun n => .ok (.int n)))) ⟨(), []⟩ [.int 3] := by
  have short : ([1, 2, 3, 4] : List Int64).length < UInt64.size := by decide
  exact And.left (composed_slice short
    [.skip 1, .limit 18446744073709551615, .skip 1, .limit 1] Value.int
    Pipeline.twoCustomersExecutor_loads.steady (by decide) ⟨rfl, trivial⟩)

end Window
end EntityQuery
