import EntityQuery.Query.Compiled

/-! The parameters of a query. A name is bound by the first parameter that has it; that a parameter
is listed once with each of its values, expression by expression, makes no difference. -/
namespace EntityQuery

namespace Dictionary

variable {α : Type} {d : Dictionary α} {name other : String} {entry : String × α}

theorem has_iff : d.has name ↔ name ∈ d.names := by
  induction d with
  | nil => simp [has, find?, names]
  | cons entry rest ih =>
    rw [has, find?, List.lookup_cons, names, List.map_cons, List.mem_cons]
    by_cases same : name = entry.1
    · simp [same]
    · rw [beq_eq_false_iff_ne.2 same, or_iff_right same]
      exact ih

theorem mem_names_insert {value : α} :
    other ∈ (d.insert name value).names ↔ other = name ∨ other ∈ d.names := by
  induction d with
  | nil => simp [insert, names]
  | cons entry rest ih =>
    obtain ⟨key, old⟩ := entry
    simp only [names] at ih ⊢
    rw [insert]
    split
    · simp
    split
    · next same => simp [same]
    · simp only [List.map_cons, List.mem_cons, ih]
      exact or_left_comm

theorem of_mem_insert {value : α} (h : entry ∈ d.insert name value) :
    entry = (name, value) ∨ entry ∈ d := by
  induction d with
  | nil => exact .inl (List.mem_singleton.1 h)
  | cons first rest ih =>
    obtain ⟨key, old⟩ := first
    rw [insert] at h
    split at h
    · exact List.mem_cons.1 h
    split at h
    · exact (List.mem_cons.1 h).imp_right (List.mem_cons_of_mem _)
    · rcases List.mem_cons.1 h with here | later
      · exact .inr (List.mem_cons.2 (.inl here))
      · exact (ih later).imp_right (List.mem_cons_of_mem _)

/-- Binds a name that is not bound yet. -/
def bindNew (d : Dictionary α) (p : String × α) : Dictionary α :=
  if d.has p.1 then d else d.insert p.1 p.2

def bindAll (d : Dictionary α) (ps : List (String × α)) : Dictionary α := ps.foldl bindNew d

theorem mem_names_bindNew {p : String × α} :
    other ∈ (d.bindNew p).names ↔ other = p.1 ∨ other ∈ d.names := by
  unfold bindNew
  split
  · next bound =>
    refine ⟨.inr, ?_⟩
    rintro (rfl | known)
    · exact has_iff.1 bound
    · exact known
  · exact mem_names_insert

theorem mem_names_bindAll {ps : List (String × α)} :
    other ∈ (d.bindAll ps).names ↔ other ∈ ps.map Prod.fst ∨ other ∈ d.names := by
  induction ps generalizing d with
  | nil => simp [bindAll]
  | cons p ps ih =>
    rw [bindAll, List.foldl_cons, ← bindAll, ih, mem_names_bindNew, List.map_cons, List.mem_cons,
      or_left_comm, or_assoc]

/-- Nothing is bound but what is given. -/
theorem of_mem_bindAll {ps : List (String × α)} (h : entry ∈ d.bindAll ps) :
    entry ∈ ps ∨ entry ∈ d := by
  induction ps generalizing d with
  | nil => exact .inr h
  | cons p ps ih =>
    rcases ih h with later | before
    · exact .inl (List.mem_cons_of_mem _ later)
    · unfold bindNew at before
      split at before
      · exact .inr before
      · exact (of_mem_insert before).imp_left fun here => List.mem_cons.2 (.inl here)

theorem bindNew_of_mem {p : String × α} (bound : p.1 ∈ d.names) : d.bindNew p = d :=
  if_pos (has_iff.2 bound)

end Dictionary

namespace Expr

/-- All parameters of an expression, with repetitions. -/
def allParameters (e : Expr) : List (String × Value) := e.nodes.filterMap parameter?

/-- Parameters that are not listed again would not be bound again either. -/
theorem bindAll_addParameter (d : Dictionary Value) (found : List (String × Value))
    (p : String × Value) :
    d.bindAll (addParameter found p) = (d.bindAll found).bindNew p := by
  unfold addParameter
  split
  · next listed =>
    obtain ⟨q, hq, same⟩ := List.any_eq_true.1 listed
    have named : q.1 = p.1 := eq_of_beq (Bool.and_eq_true_iff.1 same).1
    have known : p.1 ∈ found.map Prod.fst := List.mem_map.2 ⟨q, hq, named⟩
    exact (Dictionary.bindNew_of_mem (Dictionary.mem_names_bindAll.2 (.inl known))).symm
  · exact List.foldl_append ..

theorem bindAll_parameters (d : Dictionary Value) (e : Expr) :
    d.bindAll e.parameters = d.bindAll e.allParameters := by
  have listed (ps found : List (String × Value)) :
      d.bindAll (ps.foldl addParameter found) = (d.bindAll found).bindAll ps := by
    induction ps generalizing found with
    | nil => rfl
    | cons p ps ih =>
      rw [List.foldl_cons, ih, bindAll_addParameter]
      rfl
  exact listed e.allParameters []

end Expr

namespace QueryModel

variable {m : QueryModel} {params : Dictionary Value}

/-- Binding that succeeds binds the names that are new. -/
theorem bindParameter_eq {d d' : Dictionary Value} {p : String × Value}
    (h : bindParameter d p = .ok d') : d' = d.bindNew p := by
  unfold bindParameter at h
  unfold Dictionary.bindNew Dictionary.has
  split at h
  · next bound found =>
    split at h
    · rw [found]
      exact (Except.ok.inj h).symm
    · cases h
  · next unbound =>
    rw [unbound]
    exact (Except.ok.inj h).symm

/-- What is collected is bound by the parameters of all expressions in turn. -/
theorem collectParameters_eq (h : m.collectParameters = .ok params) :
    params = Dictionary.bindAll [] (m.exprs.flatMap Expr.allParameters) := by
  have bound (ps : List (String × Value)) (d : Dictionary Value)
      (h : ps.foldlM bindParameter d = .ok params) : params = d.bindAll ps := by
    induction ps generalizing d with
    | nil => exact (Except.ok.inj h).symm
    | cons p ps ih =>
      rw [List.foldlM_cons] at h
      cases first : bindParameter d p with
      | error e =>
        rw [first] at h
        cases h
      | ok d' =>
        rw [first] at h
        rw [ih d' h, bindParameter_eq first]
        rfl
  have flattened (es : List Expr) (d : Dictionary Value) :
      d.bindAll (es.flatMap Expr.parameters) = d.bindAll (es.flatMap Expr.allParameters) := by
    induction es generalizing d with
    | nil => rfl
    | cons e es ih =>
      have apart (ps qs : List (String × Value)) :
          d.bindAll (ps ++ qs) = (d.bindAll ps).bindAll qs := List.foldl_append ..
      rw [List.flatMap_cons, List.flatMap_cons, apart, apart, Expr.bindAll_parameters, ih]
  rw [bound _ [] h, flattened]

end QueryModel
end EntityQuery
