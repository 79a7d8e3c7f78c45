import EntityQuery.Libraries.Plain
import EntityQuery.Proofs.Pipeline.Models
import EntityQuery.Proofs.Query.Validity

/-! Pipelines find their way in the metamodel: whatever they are built of, their model validates,
and all of its references, paths and sources are ones that the metamodel has. -/
namespace EntityQuery

/-- References carry the entity types of the sources they name, fields the types that their paths
lead to from what they are read of, and a source along a path the entity type of the collection
that the path leads to from an earlier source. -/
structure QueryModel.Navigates (metamodel : Metamodel) (m : QueryModel) : Prop where
  references : ∀ e ∈ m.exprs, ∀ (id : Nat) (entity : String), .source id entity ∈ e.nodes →
    m.sources[id]?.map Source.entity = some entity
  fields : ∀ e ∈ m.exprs, ∀ base path type, .field base path type ∈ e.nodes →
    ∃ entity, base.type = .entity entity ∧ metamodel.Leads entity path type
  paths : ∀ (index parent : Nat) (names : List String) (entity : String),
    m.sources[index]? = some (.path parent names entity) →
    parent < index ∧ ∃ origin, m.sources[parent]? = some origin ∧
      metamodel.Leads origin.entity names (.collection entity)

namespace QueryModel

variable {metamodel : Metamodel} {m : QueryModel} {e : CompileError}

theorem collectParameters_error (h : m.collectParameters = .error e) :
    ∃ name, e = .parameterConflict name := by
  unfold collectParameters at h
  generalize m.exprs.flatMap Expr.parameters = parameters at h
  generalize ([] : Dictionary Value) = bound at h
  induction parameters generalizing bound with
  | nil => cases h
  | cons p parameters ih =>
    rw [List.foldlM_cons] at h
    cases first : bindParameter bound p with
    | ok bound' =>
      rw [first] at h
      exact ih bound' h
    | error e' =>
      rw [first] at h
      obtain rfl : e' = e := Except.error.inj h
      unfold bindParameter at first
      split at first
      · split at first <;> cases first
        exact ⟨_, rfl⟩
      · cases first

/-- Why a model does not compile: it does not validate, or two values are bound to one name. -/
theorem compile_error [Libraries] {dialect : Dialect} (h : m.compile dialect = .error e) :
    (∃ cause, m.validate = .error cause ∧ e = .invalidModel cause) ∨
      ∃ name, m.collectParameters = .error e ∧ e = .parameterConflict name := by
  unfold compile at h
  cases valid : m.validate with
  | error cause =>
    rw [valid] at h
    exact .inl ⟨cause, rfl, (Except.error.inj h).symm⟩
  | ok _ =>
    rw [valid] at h
    cases collected : m.collectParameters with
    | ok params =>
      rw [collected] at h
      cases h
    | error e' =>
      rw [collected] at h
      obtain rfl : e' = e := Except.error.inj h
      obtain ⟨name, conflict⟩ := collectParameters_error collected
      exact .inr ⟨name, rfl, conflict⟩

theorem Sound.navigates (h : m.Sound metamodel) : m.Navigates metamodel where
  references e he id entity hn := by
    cases (h.exprs e he).of_mem_nodes hn with
    | source known => rwa [List.getElem?_map] at known
  fields e he base path type hn := by
    cases (h.exprs e he).of_mem_nodes hn with
    | field formed origin typed long => exact Metamodel.leads_of_pathType? typed long
  paths index parent names entity found := by
    obtain ⟨origin, horigin, leads⟩ := h.sources index _ found
    rw [List.getElem?_take] at horigin
    split at horigin
    · next before => exact ⟨before, origin, horigin, leads⟩
    · cases horigin

end QueryModel

namespace Pipeline

variable {p : Pipeline} {f : Lambda}

/-- A source that a lambda streams resolves from those that are there. -/
theorem resolves_of_queryForm {source : Source}
    (form : p.queryForm .join f = .ok (.join source)) (h : p.model.Sound p.metamodel) :
    source.Resolves p.metamodel p.model.sources := by
  obtain ⟨t, -, means, -⟩ := queryForm_ok form
  cases source with
  | root entity => exact trivial
  | path parent names entity =>
    obtain ⟨start, formed⟩ := Trace.formed_of_path (of_mem_bindings h.element) means.symm
    cases formed with
    | field base origin typed long =>
      cases base with
      | source known =>
        rw [List.getElem?_map] at known
        obtain ⟨before, hbefore, rfl⟩ := Option.map_eq_some_iff.1 known
        obtain ⟨_, same, leads⟩ := Metamodel.leads_of_pathType? typed long
        obtain rfl := ExprType.entity.inj same
        exact ⟨before, hbefore, leads⟩

theorem Merges.sound {m : QueryModel} (merges : p.Merges m) (h : p.model.Sound p.metamodel) :
    m.Sound p.metamodel := by
  cases merges with
  | select form merged => exact h.select merged (formed_of_queryForm form h.element)
  | filter form merged => exact h.filter merged (formed_of_queryForm form h.element)
  | join form merged => exact h.join merged (resolves_of_queryForm form h)
  | sort form merged => exact h.sort merged (formed_of_queryForm form h.element)
  | distinct merged =>
    obtain ⟨-, rfl⟩ := QueryModel.dedupe_eq merged
    exact h.same rfl rfl rfl
  | skip n => exact h.same rfl rfl rfl
  | limit n => exact h.same rfl rfl rfl

theorem Reachable.sound (h : Reachable p) : p.model.Sound p.metamodel := by
  obtain ⟨provider, entity, built⟩ := h
  have surroundings := (Becomes.surroundings built).1
  rw [surroundings]
  refine built.model (I := (QueryModel.Sound (provider.all entity).metamodel ·)) ?_ ?_ ?_
  · unfold Provider.all
    split <;> exact QueryModel.sound_root entity provider.hints
  · exact fun m hints sound => sound.same rfl rfl rfl
  · intro q m same sound merges
    rw [← same] at sound ⊢
    exact merges.sound sound

/-- However a pipeline was built, its model validates, so that it compiles unless two values are
bound to one name, and it navigates. -/
theorem navigates_of_reachable [Libraries] (h : Reachable p) :
    p.model.validate = .ok () ∧
    (∀ dialect e, p.model.compile dialect = .error e → ∃ name, e = .parameterConflict name) ∧
    p.model.Navigates p.metamodel := by
  have sound := h.sound
  refine ⟨sound.validate, fun dialect e failed => ?_, sound.navigates⟩
  obtain ⟨cause, invalid, -⟩ | ⟨name, -, conflict⟩ := QueryModel.compile_error failed
  · rw [sound.validate] at invalid
    cases invalid
  · exact ⟨name, conflict⟩

/-- Customers have orders. -/
def shop : Metamodel :=
  [("Customer", [("name", .scalar .string), ("orders", .collection "Order")]),
    ("Order", [("customer", .reference "Customer")])]

/-- The names of the customers of all orders: `fun c => c.orders`, then `fun p => p.1.customer`,
then `fun c => c.name`. -/
def customerNames : Pipeline :=
  (((Provider.all { metamodel := shop } "Customer").join
    (.traced 1 [] (.stream (.field (.param 0) "orders")))).select
    (.traced 1 [] (.field (.element (.param 0) 1) "customer"))).select
    (.traced 1 [] (.field (.param 0) "name"))

open Libraries.Plain in
theorem navigates_customerNames :
    customerNames.model.sources = [.root "Customer", .path 0 ["orders"] "Order"] ∧
    customerNames.model.projection =
      some (.field (.source 1 "Order") ["customer", "name"] .string) ∧
    customerNames.model.validate = .ok () ∧ customerNames.model.Navigates shop := by
  have reached : Reachable customerNames :=
    ⟨_, _, .tail (.tail (.tail .refl (.operation (.join _))) (.operation (.select _)))
      (.operation (.select _))⟩
  obtain ⟨valid, -, navigates⟩ := navigates_of_reachable reached
  exact ⟨rfl, rfl, valid, navigates⟩

end Pipeline
end EntityQuery
