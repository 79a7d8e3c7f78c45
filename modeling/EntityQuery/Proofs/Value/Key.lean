import EntityQuery.Proofs.Json.Compact
import EntityQuery.Proofs.Value.Order
import EntityQuery.Value.Json

/-! The text by which duplicates are found. Values without floats share it only when they are the
same. -/
namespace EntityQuery

namespace Value

mutual

theorem toJson_inj : (v w : Value) → v.toJson = w.toJson → v = w
  | null, w, h => by cases w <;> simp_all [toJson, Json.tagged]
  | bool b, w, h => by cases w <;> simp_all [toJson, Json.tagged]
  | int n, w, h => by
    cases w <;> simp [toJson, Json.tagged] at h
    · rw [Int64.toInt_inj.1 h]
  | float x, w, h => by cases w <;> simp_all [toJson, Json.tagged]
  | string s, w, h => by cases w <;> simp_all [toJson, Json.tagged]
  | entity type attributes, w, h => by
    cases w <;> simp [toJson, Json.tagged] at h
    · rw [h.1, entriesToJson_inj attributes _ h.2]
  | list items, w, h => by
    cases w <;> simp [toJson, Json.tagged] at h
    · rw [itemsToJson_inj items _ h]
  | tuple items, w, h => by
    cases w <;> simp [toJson, Json.tagged] at h
    · rw [itemsToJson_inj items _ h]

theorem itemsToJson_inj : (vs ws : List Value) → itemsToJson vs = itemsToJson ws → vs = ws
  | [], [], _ => rfl
  | [], _ :: _, h => by simp [itemsToJson] at h
  | _ :: _, [], h => by simp [itemsToJson] at h
  | v :: vs, w :: ws, h => by
    obtain ⟨first, rest⟩ := List.cons.inj h
    rw [toJson_inj v w first, itemsToJson_inj vs ws rest]

theorem entriesToJson_inj : (vs ws : List (String × Value)) →
    entriesToJson vs = entriesToJson ws → vs = ws
  | [], [], _ => rfl
  | [], (_, _) :: _, h => by simp [entriesToJson] at h
  | (_, _) :: _, [], h => by simp [entriesToJson] at h
  | (_, v) :: vs, (_, w) :: ws, h => by
    obtain ⟨first, rest⟩ := List.cons.inj h
    obtain ⟨rfl, same⟩ := Prod.mk.inj first
    rw [toJson_inj v w same, entriesToJson_inj vs ws rest]

end

mutual

/-- Where no float occurs everything is written. -/
theorem written_toJson : (v : Value) → v.floatFree → v.toJson.written = v.toJson
  | null, _ | bool _, _ | int _, _ | string _, _ => rfl
  | float _, free => by cases free
  | entity _ attributes, free => by
    simp [toJson, Json.tagged, Json.written, Json.writtenFields,
      writtenFields_entriesToJson attributes free]
  | list items, free => by
    simp [toJson, Json.tagged, Json.written, Json.writtenFields, writtenItems_itemsToJson items free]
  | tuple items, free => by
    simp [toJson, Json.tagged, Json.written, Json.writtenFields, writtenItems_itemsToJson items free]

theorem writtenItems_itemsToJson : (vs : List Value) → floatFreeItems vs →
    Json.writtenItems (itemsToJson vs) = itemsToJson vs
  | [], _ => rfl
  | v :: vs, free => by
    simp only [floatFreeItems, Bool.and_eq_true] at free
    simp [itemsToJson, Json.writtenItems, written_toJson v free.1,
      writtenItems_itemsToJson vs free.2]

theorem writtenFields_entriesToJson : (vs : List (String × Value)) → floatFreeEntries vs →
    Json.writtenFields (entriesToJson vs) = entriesToJson vs
  | [], _ => rfl
  | (_, v) :: vs, free => by
    simp only [floatFreeEntries, Bool.and_eq_true] at free
    simp [entriesToJson, Json.writtenFields, written_toJson v free.1,
      writtenFields_entriesToJson vs free.2]

end

theorem key_inj [Libraries] [Libraries.JsonNumerals] {v w : Value} (free : v.floatFree)
    (free' : w.floatFree) (h : v.key = w.key) : v = w := by
  have same := Json.compact_eq_iff.1 h
  rw [written_toJson v free, written_toJson w free'] at same
  exact toJson_inj v w same

mutual

/-- Sameness of values whose floats are related. -/
def sameBy (r : Float → Float → Bool) : Value → Value → Bool
  | null, null => true
  | bool a, bool b => a == b
  | int a, int b => a == b
  | float a, float b => r a b
  | string a, string b => a == b
  | entity t a, entity u b => t == u && sameEntriesBy r a b
  | list a, list b => sameItemsBy r a b
  | tuple a, tuple b => sameItemsBy r a b
  | _, _ => false

def sameItemsBy (r : Float → Float → Bool) : List Value → List Value → Bool
  | [], [] => true
  | a :: as, b :: bs => sameBy r a b && sameItemsBy r as bs
  | _, _ => false

def sameEntriesBy (r : Float → Float → Bool) :
    List (String × Value) → List (String × Value) → Bool
  | [], [] => true
  | (k, a) :: as, (l, b) :: bs => k == l && sameBy r a b && sameEntriesBy r as bs
  | _, _ => false

end

/-- Floats that the text takes for the same: it does not tell which float is not finite. -/
def writtenAlike (x y : Float) : Bool := x = y || (!Number.isFinite x && !Number.isFinite y)

theorem writtenAlike_iff {x y : Float} :
    writtenAlike x y ↔ (Json.float x).written = (Json.float y).written := by
  by_cases first : Number.isFinite x <;> by_cases second : Number.isFinite y
  · simp [writtenAlike, Json.written, first, second]
  · have apart : x ≠ y := fun same => second (same ▸ first)
    simp [writtenAlike, Json.written, first, second, apart]
  · have apart : x ≠ y := fun same => first (same ▸ second)
    simp [writtenAlike, Json.written, first, second, apart]
  · simp [writtenAlike, Json.written, first, second]

mutual

theorem written_toJson_eq_iff : (v w : Value) →
    (v.toJson.written = w.toJson.written ↔ v.sameBy writtenAlike w)
  | null, w => by cases w <;> simp [toJson, Json.tagged, Json.written, sameBy]
  | bool b, w => by cases w <;> simp [toJson, Json.tagged, Json.written, Json.writtenFields, sameBy]
  | int n, w => by
    cases w <;> simp [toJson, Json.tagged, Json.written, Json.writtenFields, sameBy,
      Int64.toInt_inj]
  | float x, w => by
    cases w with
    | float y =>
      have float := writtenAlike_iff (x := x) (y := y)
      simp [toJson, Json.tagged, Json.written, Json.writtenFields, sameBy] at float ⊢
      exact float.symm
    | _ => simp [toJson, Json.tagged, Json.written, Json.writtenFields, sameBy]
  | string s, w => by
    cases w <;> simp [toJson, Json.tagged, Json.written, Json.writtenFields, sameBy]
  | entity type attributes, w => by
    cases w with
    | entity u b =>
      have others := writtenFields_eq_iff attributes b
      simp [toJson, Json.tagged, Json.written, Json.writtenFields, sameBy, others]
    | _ => simp [toJson, Json.tagged, Json.written, Json.writtenFields, sameBy]
  | list items, w => by
    cases w with
    | list b =>
      have others := writtenItems_eq_iff items b
      simp [toJson, Json.tagged, Json.written, Json.writtenFields, sameBy, others]
    | _ => simp [toJson, Json.tagged, Json.written, Json.writtenFields, sameBy]
  | tuple items, w => by
    cases w with
    | tuple b =>
      have others := writtenItems_eq_iff items b
      simp [toJson, Json.tagged, Json.written, Json.writtenFields, sameBy, others]
    | _ => simp [toJson, Json.tagged, Json.written, Json.writtenFields, sameBy]

theorem writtenItems_eq_iff : (vs ws : List Value) →
    (Json.writtenItems (itemsToJson vs) = Json.writtenItems (itemsToJson ws) ↔
      sameItemsBy writtenAlike vs ws)
  | [], [] => by simp [sameItemsBy]
  | [], _ :: _ | _ :: _, [] => by simp [itemsToJson, Json.writtenItems, sameItemsBy]
  | v :: vs, w :: ws => by
    simp [itemsToJson, Json.writtenItems, sameItemsBy, written_toJson_eq_iff v w,
      writtenItems_eq_iff vs ws]

theorem writtenFields_eq_iff : (vs ws : List (String × Value)) →
    (Json.writtenFields (entriesToJson vs) = Json.writtenFields (entriesToJson ws) ↔
      sameEntriesBy writtenAlike vs ws)
  | [], [] => by simp [sameEntriesBy]
  | [], (_, _) :: _ | (_, _) :: _, [] => by
    simp [entriesToJson, Json.writtenFields, sameEntriesBy]
  | (k, v) :: vs, (l, w) :: ws => by
    simp [entriesToJson, Json.writtenFields, sameEntriesBy, written_toJson_eq_iff v w,
      writtenFields_eq_iff vs ws]

end

/-- Values share a text exactly if they are the same but for floats that are not finite. -/
theorem key_eq_iff [Libraries] [Libraries.JsonNumerals] {v w : Value} :
    v.key = w.key ↔ v.sameBy writtenAlike w :=
  Json.compact_eq_iff.trans (written_toJson_eq_iff v w)

end Value

/-- Elements that their texts tell apart, as they do where no float occurs. -/
def ToldApart [Libraries] (l : List Value) : Prop :=
  (∀ v ∈ l, v.floatFree) ∨ ∀ v ∈ l, ∀ w ∈ l, v.key = w.key → v = w

theorem ToldApart.eq_of_key [Libraries] [Libraries.JsonNumerals] {l : List Value} (h : ToldApart l)
    {v w : Value} (hv : v ∈ l) (hw : w ∈ l) (same : v.key = w.key) : v = w :=
  h.elim (fun free => Value.key_inj (free v hv) (free w hw) same) fun apart => apart v hv w hw same

end EntityQuery
