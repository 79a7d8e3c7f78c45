import EntityQuery.Value.Basic
import Mathlib

/-! Equality of values. It is symmetric and transitive; a value equals itself unless a NaN occurs in
it. Equal values need not be the same, as there are two zeros. -/
namespace EntityQuery.Value

mutual

/-- No float that occurs in the value is a NaN. -/
def nanFree : Value → Prop
  | float x => x ≠ Float.nan
  | list items | tuple items => nanFreeItems items
  | entity _ attributes => nanFreeEntries attributes
  | null | bool _ | int _ | string _ => True

def nanFreeItems : List Value → Prop
  | [] => True
  | item :: items => nanFree item ∧ nanFreeItems items

def nanFreeEntries : List (String × Value) → Prop
  | [] => True
  | (_, value) :: rest => nanFree value ∧ nanFreeEntries rest

end

mutual

theorem same_self : (v : Value) → v.nanFree → v.same v
  | null, _ => rfl
  | bool b, _ => beq_self_eq_true b
  | int n, _ => beq_self_eq_true n
  | float x, free => Float.beq_self_iff.2 free
  | string s, _ => beq_self_eq_true s
  | entity type attributes, free => by
    rw [same, beq_self_eq_true, sameEntries_self attributes free]
    rfl
  | list items, free => sameItems_self items free
  | tuple items, free => sameItems_self items free

theorem sameItems_self : (items : List Value) → nanFreeItems items → sameItems items items
  | [], _ => rfl
  | item :: items, free => by
    rw [sameItems, same_self item free.1, sameItems_self items free.2]
    rfl

theorem sameEntries_self : (entries : List (String × Value)) → nanFreeEntries entries →
    sameEntries entries entries
  | [], _ => rfl
  | (name, value) :: rest, free => by
    rw [sameEntries, beq_self_eq_true, same_self value free.1, sameEntries_self rest free.2]
    rfl

end

mutual

theorem same_comm : (v w : Value) → v.same w = w.same v
  | null, w | bool _, w | int _, w | string _, w => by
    cases w <;> first | rfl | exact Bool.beq_comm ..
  | float x, w => by cases w <;> first | rfl | exact BEq.comm
  | entity t a, w => by
    cases w with
    | entity u b => rw [same, same, BEq.comm, sameEntries_comm a b]
    | _ => rfl
  | list a, w => by
    cases w with
    | list b => exact sameItems_comm a b
    | _ => rfl
  | tuple a, w => by
    cases w with
    | tuple b => exact sameItems_comm a b
    | _ => rfl

theorem sameItems_comm : (a b : List Value) → sameItems a b = sameItems b a
  | [], [] | [], _ :: _ | _ :: _, [] => rfl
  | v :: a, w :: b => by rw [sameItems, sameItems, same_comm v w, sameItems_comm a b]

theorem sameEntries_comm : (a b : List (String × Value)) → sameEntries a b = sameEntries b a
  | [], [] | [], _ :: _ | _ :: _, [] => rfl
  | (k, v) :: a, (l, w) :: b => by
    rw [sameEntries, sameEntries, BEq.comm (a := k), same_comm v w, sameEntries_comm a b]

end

mutual

theorem same_trans : (u v w : Value) → u.same v → v.same w → u.same w
  | null, v, w, h, h' => by cases v <;> first | exact h' | cases h
  | bool a, v, w, h, h' => by cases v <;> first | exact eq_of_beq h ▸ h' | cases h
  | int a, v, w, h, h' => by cases v <;> first | exact eq_of_beq h ▸ h' | cases h
  | string a, v, w, h, h' => by cases v <;> first | exact eq_of_beq h ▸ h' | cases h
  | float x, v, w, h, h' => by
    cases v with
    | float y =>
      cases w with
      | float z =>
        have first : (x == y) = true := h
        exact BEq.trans first h'
      | _ => cases h'
    | _ => cases h
  | entity t a, v, w, h, h' => by
    cases v with
    | entity u b =>
      cases w with
      | entity v c =>
        rw [same, Bool.and_eq_true, beq_iff_eq] at h h' ⊢
        exact ⟨h.1.trans h'.1, sameEntries_trans a b c h.2 h'.2⟩
      | _ => cases h'
    | _ => cases h
  | list a, v, w, h, h' => by
    cases v with
    | list b =>
      cases w with
      | list c => exact sameItems_trans a b c h h'
      | _ => cases h'
    | _ => cases h
  | tuple a, v, w, h, h' => by
    cases v with
    | tuple b =>
      cases w with
      | tuple c => exact sameItems_trans a b c h h'
      | _ => cases h'
    | _ => cases h

theorem sameItems_trans : (a b c : List Value) → sameItems a b → sameItems b c → sameItems a c
  | [], [], c, _, h' => h'
  | u :: a, v :: b, [], _, h' => by cases h'
  | u :: a, v :: b, w :: c, h, h' => by
    rw [sameItems, Bool.and_eq_true] at h h' ⊢
    exact ⟨same_trans u v w h.1 h'.1, sameItems_trans a b c h.2 h'.2⟩

theorem sameEntries_trans : (a b c : List (String × Value)) → sameEntries a b →
    sameEntries b c → sameEntries a c
  | [], [], c, _, h' => h'
  | (k, u) :: a, (l, v) :: b, [], _, h' => by cases h'
  | (k, u) :: a, (l, v) :: b, (m, w) :: c, h, h' => by
    rw [sameEntries, Bool.and_eq_true, Bool.and_eq_true, beq_iff_eq] at h h' ⊢
    obtain ⟨⟨key, value⟩, rest⟩ := h
    obtain ⟨⟨key', value'⟩, rest'⟩ := h'
    exact ⟨⟨key.trans key', same_trans u v w value value'⟩, sameEntries_trans a b c rest rest'⟩

end

instance : PartialEquivBEq Value where
  symm h := (same_comm _ _).trans h
  trans := same_trans _ _ _

theorem beq_self {v : Value} (free : v.nanFree) : (v == v) = true := same_self v free

end EntityQuery.Value
