import EntityQuery.Dictionary

/-! Looking names up in dictionaries. -/
namespace EntityQuery.Dictionary

variable {α : Type} {d : Dictionary α} {name other : String} {value : α}

theorem find?_cons {key : String} {old : α} :
    Dictionary.find? ((key, old) :: d) other = if other = key then some old else d.find? other := by
  rw [find?, List.lookup_cons, find?]
  by_cases same : other = key
  · simp [same]
  · simp [same, beq_eq_false_iff_ne.2 same]

/-- An insertion changes what is found under its name and nothing else. -/
theorem find?_insert :
    (d.insert name value).find? other = if other = name then some value else d.find? other := by
  induction d with
  | nil => exact find?_cons
  | cons entry rest ih =>
    obtain ⟨key, old⟩ := entry
    rw [insert]
    split
    · exact find?_cons
    split
    · next same =>
      subst same
      rw [find?_cons, find?_cons]
      split <;> rfl
    · next apart =>
      rw [find?_cons, ih, find?_cons]
      split
      · next at_key => rw [if_neg (at_key ▸ Ne.symm apart)]
      · rfl

end EntityQuery.Dictionary
