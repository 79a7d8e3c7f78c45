import EntityQuery.Proofs.QueryForm.Typing
import EntityQuery.Query.Emission

/-! Where paths start. A path of a translation starts at a source and is written as the name of the
source and the names of attributes, or it starts at a choice between entities, as no operation that
reads an attribute looks at what it reads it of. -/
namespace EntityQuery

open QueryForm Emission

variable {m : Metamodel} {sources : List String}

/-- A path that starts at a choice. -/
def Expr.readsChoice : Expr → Bool
  | field (conditional _ _ _) _ _ => true
  | _ => false

theorem Expr.exists_of_readsChoice {e : Expr} (h : e.readsChoice) :
    ∃ c a b path type, e = .field (.conditional c a b) path type := by
  unfold readsChoice at h
  split at h
  · exact ⟨_, _, _, _, _, rfl⟩
  · cases h

namespace Expr.Formed

variable {base : Expr} {path : List String} {type : ExprType}

theorem source_of_field (h : (Expr.field base path type).Formed m sources)
    (plain : (Expr.field base path type).readsChoice = false) :
    ∃ id entity, base = .source id entity ∧ sources[id]? = some entity := by
  cases h with
  | field formed origin typed long =>
    cases formed with
    | source known => exact ⟨_, _, rfl, known⟩
    | conditional => cases plain
    | _ => cases origin

end Expr.Formed

/-- A path that starts at a choice is written as one. -/
theorem Expr.ne_path_of_readsChoice {ctx : Context} {e : Expr} {id : Nat} {path : List String}
    (h : e.readsChoice) : (render ctx e).value ≠ ctx.aliasOf id :: pathTokens path := by
  obtain ⟨c, a, b, path, type, rfl⟩ := Expr.exists_of_readsChoice h
  simp [render, Rendering.ofValue, Rendering.ofBranch, Rendering.caseTokens, Context.aliasOf]

/-- To read an attribute of a choice is refused for the attribute only. -/
theorem QueryForm.readsChoice_field {c a b : Expr} {name : String}
    (supported : (field m (.conditional c a b) name).isUnsupported = false) :
    (field m (.conditional c a b) name).readsChoice := by
  obtain ⟨-, type, -, made⟩ := field_supported supported
  rw [made]
  rfl

/-- Reading an attribute is the operation that makes paths, and it makes one that starts at a choice
of a choice or of another such path only. -/
theorem QueryForm.Makes.not_readsChoice {bindings : List Binding} {read : Nat → Expr} {op : Op}
    {e : Expr} (h : Makes m bindings read op e)
    (given : ∀ b, Binding.element b ∈ bindings → b.Throughout (·.readsChoice = false))
    (inputs : ∀ id ∈ op.inputs, (read id).Throughout (·.readsChoice = false))
    (plain : ∀ base name, op = .field base name → ∀ c a b, read base ≠ .conditional c a b) :
    e.readsChoice = false := by
  cases h with
  | given bound => exact given e (List.mem_of_getElem? bound) e e.mem_nodes_self
  | @field base name type =>
    have whole := inputs base List.mem_cons_self _ (Expr.mem_nodes_self _)
    have start := plain base name rfl
    cases read : read base with
    | field first path type' =>
      rw [read] at whole
      cases first <;> first | rfl | cases whole
    | conditional c a b => exact absurd read (start c a b)
    | _ => rfl
  | component part =>
    rcases Expr.mem_nodes_element? part e.mem_nodes_self with below | ⟨-, tuple⟩
    · exact inputs _ List.mem_cons_self e below
    · cases e <;> first | rfl | cases tuple
  | _ => rfl

/-- Paths start at sources, and are written as the name of a source and the names of attributes,
exactly where none starts at a choice; and none does unless one of the bindings does or the lambda
reads an attribute of a choice, which is refused for the attribute only. -/
theorem Trace.paths_rooted_iff {t : Trace} {bindings : List Binding} {e : Expr}
    (given : ∀ b, Binding.element b ∈ bindings → Translated m sources b)
    (form : t.queryForm m bindings = .expr e) (supported : e.isUnsupported = false) :
    ((∀ base path type, Expr.field base path type ∈ e.nodes →
        ∃ id entity, base = .source id entity ∧ sources[id]? = some entity) ↔
      ∀ n ∈ e.nodes, n.readsChoice = false) ∧
    ((∀ ctx base path type, Expr.field base path type ∈ e.nodes →
        ∃ id, (render ctx (.field base path type)).value = ctx.aliasOf id :: pathTokens path) ↔
      ∀ n ∈ e.nodes, n.readsChoice = false) ∧
    ((∀ b, Binding.element b ∈ bindings → ∀ n ∈ b.nodes, n.readsChoice = false) →
      (∀ base name, Op.field base name ∈ t.ops →
        ∀ c a b, t.reading m bindings base ≠ .conditional c a b) →
      ∀ n ∈ e.nodes, n.readsChoice = false) ∧
    ∀ c a b name, (field m (.conditional c a b) name).isUnsupported ∨
      (field m (.conditional c a b) name).readsChoice := by
  have formed : e.Formed m sources := (Translated.lambda given form supported).formed
  have source {base : Expr} {path : List String} {type : ExprType}
      (plain : ∀ n ∈ e.nodes, n.readsChoice = false) (path : Expr.field base path type ∈ e.nodes) :=
    (formed.of_mem_nodes path).source_of_field (plain _ path)
  refine ⟨⟨fun rooted n hn => ?_, fun plain base path type => source plain⟩,
    ⟨fun written n hn => ?_, fun plain ctx base path type hn => ?_⟩, fun given plain => ?_,
    fun c a b name => ?_⟩
  · by_contra choice
    obtain ⟨c, a, b, path, type, rfl⟩ := Expr.exists_of_readsChoice (by simpa using choice)
    obtain ⟨id, entity, same, -⟩ := rooted _ _ _ hn
    cases same
  · by_contra choice
    have choice : n.readsChoice := by simpa using choice
    obtain ⟨c, a, b, path, type, rfl⟩ := Expr.exists_of_readsChoice choice
    obtain ⟨id, same⟩ := written ⟨.jpql, []⟩ _ _ _ hn
    exact Expr.ne_path_of_readsChoice choice same
  · obtain ⟨id, entity, rfl, -⟩ := source plain hn
    exact ⟨id, rfl⟩
  · refine Trace.throughout_of_makes given (fun op hop e _ made inputs => ?_) form supported
    refine made.not_readsChoice given inputs ?_
    rintro base name rfl
    exact plain base name hop
  · cases supported : (field m (.conditional c a b) name).isUnsupported with
    | true => exact .inl rfl
    | false => exact .inr (readsChoice_field supported)

/-- The sum reads attributes of a source only, also in the arm of its branch. -/
theorem paths_rooted_debtSum :
    debtTrace.queryForm debtors [.element (.source 0 "Customer")] = .expr debtSum ∧
    (∀ n ∈ debtSum.nodes, n.readsChoice = false) ∧
    ∀ base path type, Expr.field base path type ∈ debtSum.nodes →
      ∃ id entity, base = .source id entity ∧ ["Customer"][id]? = some entity := by
  have origin (b : Expr) (h : Binding.element b ∈ [Binding.element (.source 0 "Customer")]) :
      Translated debtors ["Customer"] b := by
    cases List.mem_singleton.1 h
    exact .source rfl
  have plain : ∀ n ∈ debtSum.nodes, n.readsChoice = false := by decide
  exact ⟨rfl, plain, (Trace.paths_rooted_iff (t := debtTrace) origin rfl rfl).1.2 plain⟩

/-- `fun c => (if c.vip then c else c).debt` -/
def choiceTrace : Trace where
  arity := 1
  ops := [.param 0, .field 0 "vip", .branch 1 0 0, .field 2 "debt"]
  result := 3

/-- The customer itself, whichever branch is taken. -/
def choice : Expr :=
  .conditional (.field (.source 0 "Customer") ["vip"] .boolean) (.source 0 "Customer")
    (.source 0 "Customer")

/-- The debt of a choice between customers is a path that starts at no source. A stream of what such
a path reaches is refused. -/
theorem paths_not_rooted_choice :
    choiceTrace.queryForm debtors [.element (.source 0 "Customer")] =
        .expr (.field choice ["debt"] .numeric) ∧
      (¬∀ base path type, Expr.field base path type ∈ (Expr.field choice ["debt"] .numeric).nodes →
        ∃ id entity, base = .source id entity ∧ ["Customer"][id]? = some entity) ∧
      ∀ path entity, streamFrom (.field choice path (.collection entity)) =
        .unsupported "navigation stream not rooted at a source" := by
  refine ⟨rfl, fun rooted => ?_, fun _ _ => rfl⟩
  obtain ⟨id, entity, same, -⟩ := rooted _ _ _ (Expr.mem_nodes_self _)
  cases same

end EntityQuery
