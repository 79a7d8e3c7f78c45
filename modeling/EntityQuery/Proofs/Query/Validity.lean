import EntityQuery.Proofs.Query.Merging

/-! Models that find their way in the metamodel. Sources come from earlier ones by paths that the
metamodel has, expressions are formed over the sources, and the predicate is boolean. Such models
validate, and merging a clause whose lambda translates to a formed expression keeps them so. -/
namespace EntityQuery

/-- From an entity type a path of attributes leads to a type. All attributes before the last one
are references, and each is one of the entity type that the one before it refers to. -/
inductive Metamodel.Leads (m : Metamodel) : String → List String → ExprType → Prop
  | last {entity name : String} {kind : AttributeKind}
    (has : m.attribute? entity name = some kind) : m.Leads entity [name] kind.type
  | through {entity name next : String} {rest : List String} {type : ExprType}
    (has : m.attribute? entity name = some (.reference next)) (onward : m.Leads next rest type) :
    m.Leads entity (name :: rest) type

namespace Metamodel

variable {m : Metamodel} {type : ExprType} {entity : String} {path : List String}

theorem type_eq_entity {kind : AttributeKind} (h : kind.type = .entity entity) :
    kind = .reference entity := by
  cases kind with
  | reference other => obtain rfl := ExprType.entity.inj h; rfl
  | collection other => cases h
  | scalar scalar => cases scalar <;> cases h

theorem entity_of_entityName? {t : ExprType} (h : t.entityName? = some entity) :
    t = .entity entity := by
  cases t with
  | entity name => rw [Option.some.inj h]
  | _ => cases h

/-- A path with a type leads to it. -/
theorem leads_of_pathType? {start : ExprType} (typed : m.pathType? start path = some type)
    (long : path ≠ []) : ∃ entity, start = .entity entity ∧ m.Leads entity path type := by
  induction path generalizing start with
  | nil => exact absurd rfl long
  | cons name rest ih =>
    rw [pathType?, List.foldlM_cons] at typed
    obtain ⟨next, hnext, onward⟩ := Option.bind_eq_some_iff.1 typed
    obtain ⟨entity, hentity, hkind⟩ := Option.bind_eq_some_iff.1 hnext
    obtain ⟨kind, has, rfl⟩ := Option.map_eq_some_iff.1 hkind
    refine ⟨entity, entity_of_entityName? hentity, ?_⟩
    by_cases more : rest = []
    · subst more
      obtain rfl : kind.type = type := Option.some.inj onward
      exact .last has
    · obtain ⟨target, htarget, leads⟩ := ih onward more
      obtain rfl := type_eq_entity htarget
      exact .through has leads

end Metamodel

/-! ### What validation looks at -/

namespace Expr

theorem mem_insertAscending {n k : Nat} {l : List Nat} :
    k ∈ insertAscending n l ↔ k = n ∨ k ∈ l := by
  induction l with
  | nil => simp [insertAscending]
  | cons a l ih =>
    rw [insertAscending]
    split
    · simp
    split
    · next same => simp [same]
    · simp only [List.mem_cons, ih]
      tauto

/-- The sources of an expression are those of its source nodes. -/
theorem mem_sources {e : Expr} {id : Nat} :
    id ∈ e.sources ↔ ∃ entity, .source id entity ∈ e.nodes := by
  have collected (ids found : List Nat) :
      id ∈ ids.foldl (fun found id => insertAscending id found) found ↔ id ∈ ids ∨ id ∈ found := by
    induction ids generalizing found with
    | nil => simp
    | cons first ids ih =>
      rw [List.foldl_cons, ih, mem_insertAscending, List.mem_cons]
      tauto
  rw [sources, collected, List.mem_filterMap]
  constructor
  · rintro (⟨n, hn, hid⟩ | none)
    · cases n <;> cases hid
      exact ⟨_, hn⟩
    · cases none
  · rintro ⟨entity, hn⟩
    exact .inl ⟨_, hn, rfl⟩

end Expr

theorem forM_ok_iff {ε α : Type} {f : α → Except ε Unit} {l : List α} :
    l.forM f = .ok () ↔ ∀ a ∈ l, f a = .ok () := by
  induction l with
  | nil => simp [pure, Except.pure]
  | cons a l ih =>
    change (f a >>= fun _ => l.forM f) = .ok () ↔ _
    rw [bind_ok_iff, List.forall_mem_cons, ← ih]
    constructor
    · rintro ⟨⟨⟩, first, others⟩
      exact ⟨first, others⟩
    · rintro ⟨first, others⟩
      exact ⟨(), first, others⟩

/-- A path starts at an earlier source and leads to a collection of the source's entities. -/
def Source.Resolves (metamodel : Metamodel) (before : List Source) : Source → Prop
  | root _ => True
  | path parent names entity =>
    ∃ origin, before[parent]? = some origin ∧
      metamodel.Leads origin.entity names (.collection entity)

namespace QueryModel

/-- The first source is an entity type, every other one resolves from those before it, expressions
are formed over the sources and the predicate can be boolean. -/
structure Sound (metamodel : Metamodel) (m : QueryModel) : Prop where
  root : ∃ entity rest, m.sources = .root entity :: rest
  sources : ∀ index (source : Source), m.sources[index]? = some source →
    source.Resolves metamodel (m.sources.take index)
  exprs : ∀ e ∈ m.exprs, e.Formed metamodel (m.sources.map Source.entity)
  predicate : ∀ e ∈ m.predicate, ExprType.boolean.accepts e.type

variable {metamodel : Metamodel} {m m' : QueryModel} {e : Expr}

theorem mem_exprs : e ∈ m.exprs ↔
    m.predicate = some e ∨ m.projection = some e ∨ ∃ key ∈ m.ordering, key.expr = e := by
  simp [exprs]

/-! Where the expressions of a merged model come from. -/

theorem forall_exprs_of_select (merged : m.select e = .ok m') :
    ∀ e' ∈ m'.exprs, e' = e ∨ e' ∈ m.exprs := by
  intro e' h
  obtain ⟨-, rfl⟩ := select_eq merged
  rcases mem_exprs.1 h with kept | selected | key
  · exact .inr (mem_exprs.2 (.inl kept))
  · exact .inl (Option.some.inj selected).symm
  · exact .inr (mem_exprs.2 (.inr (.inr key)))

/-- A second filter is a conjunction of what both of them keep. -/
theorem forall_exprs_of_filter (merged : m.filter e = .ok m') : ∀ e' ∈ m'.exprs,
    e' = e ∨ (∃ p, m.predicate = some p ∧ e' = .binary .and p e) ∨ e' ∈ m.exprs := by
  intro e' h
  obtain ⟨-, rfl⟩ := filter_eq merged
  rcases mem_exprs.1 h with kept | later
  · cases before : m.predicate with
    | none =>
      rw [before] at kept
      exact .inl (Option.some.inj kept).symm
    | some p =>
      rw [before] at kept
      exact .inr (.inl ⟨p, rfl, (Option.some.inj kept).symm⟩)
  · exact .inr (.inr (mem_exprs.2 (.inr later)))

theorem forall_exprs_of_sort {direction : Direction} (merged : m.sort e direction = .ok m') :
    ∀ e' ∈ m'.exprs, e' = e ∨ e' ∈ m.exprs := by
  intro e' h
  obtain ⟨-, rfl⟩ := sort_eq merged
  rcases mem_exprs.1 h with kept | selected | ⟨key, hkey, rfl⟩
  · exact .inr (mem_exprs.2 (.inl kept))
  · exact .inr (mem_exprs.2 (.inr (.inl selected)))
  · rcases List.mem_cons.1 hkey with rfl | before
    · exact .inl rfl
    · exact .inr (mem_exprs.2 (.inr (.inr ⟨key, before, rfl⟩)))

theorem forall_exprs_of_join {source : Source} (merged : m.join source = .ok m') :
    ∀ e' ∈ m'.exprs, e' = Expr.tupleOf [m.element, .source m.sources.length source.entity] ∨
      e' ∈ m.exprs := by
  intro e' h
  obtain ⟨-, -, -, rfl⟩ := join_eq merged
  rcases mem_exprs.1 h with kept | selected | key
  · exact .inr (mem_exprs.2 (.inl kept))
  · exact .inl (Option.some.inj selected).symm
  · exact .inr (mem_exprs.2 (.inr (.inr key)))

/-! Clauses keep models sound. -/

theorem Sound.firstSource (h : m.Sound metamodel) :
    m.firstSource.Formed metamodel (m.sources.map Source.entity) := by
  obtain ⟨entity, rest, root⟩ := h.root
  unfold QueryModel.firstSource
  rw [root]
  exact .source rfl

theorem Sound.element (h : m.Sound metamodel) :
    m.element.Formed metamodel (m.sources.map Source.entity) := by
  cases selected : m.projection with
  | some e =>
    rw [QueryModel.element, selected]
    exact h.exprs e (mem_exprs.2 (.inr (.inl selected)))
  | none =>
    rw [QueryModel.element, selected]
    exact h.firstSource

theorem sound_root (entity : String) (hints : Hints) :
    Sound metamodel { root entity with hints } where
  root := ⟨entity, [], rfl⟩
  sources index source h := by
    obtain ⟨bound, rfl⟩ := List.getElem?_eq_some_iff.1 h
    obtain rfl : index = 0 := Nat.lt_one_iff.1 bound
    exact trivial
  exprs e he := by cases he
  predicate e he := by cases he

/-- Clauses that leave sources and expressions as they are. -/
theorem Sound.same (h : m.Sound metamodel) (sources : m'.sources = m.sources)
    (predicate : m'.predicate = m.predicate) (exprs : m'.exprs = m.exprs) :
    m'.Sound metamodel where
  root := sources ▸ h.root
  sources := sources ▸ h.sources
  exprs := by rw [exprs, sources]; exact h.exprs
  predicate := predicate ▸ h.predicate

theorem Sound.select (h : m.Sound metamodel) (merged : m.select e = .ok m')
    (formed : e.Formed metamodel (m.sources.map Source.entity)) : m'.Sound metamodel := by
  have exprs := forall_exprs_of_select merged
  obtain ⟨-, rfl⟩ := select_eq merged
  refine ⟨h.root, h.sources, fun e' he' => ?_, h.predicate⟩
  rcases exprs e' he' with rfl | before
  · exact formed
  · exact h.exprs e' before

theorem Sound.filter (h : m.Sound metamodel) (merged : m.filter e = .ok m')
    (formed : e.Formed metamodel (m.sources.map Source.entity)) : m'.Sound metamodel := by
  have boolean := filter_type merged
  have exprs := forall_exprs_of_filter merged
  obtain ⟨-, rfl⟩ := filter_eq merged
  refine ⟨h.root, h.sources, fun e' he' => ?_, fun c hc => ?_⟩
  · rcases exprs e' he' with rfl | ⟨p, kept, rfl⟩ | before
    · exact formed
    · have left := h.exprs p (mem_exprs.2 (.inl kept))
      have admitted : QueryForm.admits .and p.type e.type := by
        simp [QueryForm.admits, BinaryOp.isLogical, h.predicate p kept, boolean]
      exact .binary left formed rfl admitted
    · exact h.exprs e' before
  · cases kept : m.predicate with
    | none =>
      rw [kept] at hc
      obtain rfl : e = c := Option.some.inj hc
      exact boolean
    | some p =>
      rw [kept] at hc
      obtain rfl : Expr.binary .and p e = c := Option.some.inj hc
      rfl

theorem Sound.sort (h : m.Sound metamodel) {direction : Direction}
    (merged : m.sort e direction = .ok m')
    (formed : e.Formed metamodel (m.sources.map Source.entity)) : m'.Sound metamodel := by
  have exprs := forall_exprs_of_sort merged
  obtain ⟨-, rfl⟩ := sort_eq merged
  refine ⟨h.root, h.sources, fun e' he' => ?_, h.predicate⟩
  rcases exprs e' he' with rfl | before
  · exact formed
  · exact h.exprs e' before

theorem Sound.join (h : m.Sound metamodel) {source : Source} (merged : m.join source = .ok m')
    (resolves : source.Resolves metamodel m.sources) : m'.Sound metamodel := by
  have exprs := forall_exprs_of_join merged
  obtain ⟨-, -, -, rfl⟩ := join_eq merged
  have longer : (m.joined source).sources.map Source.entity =
      m.sources.map Source.entity ++ [source.entity] := List.map_append
  refine ⟨?_, ?_, ?_, h.predicate⟩
  · obtain ⟨entity, rest, root⟩ := h.root
    exact ⟨entity, rest ++ [source], congrArg (· ++ [source]) root⟩
  · intro index found hfound
    change (m.sources ++ [source])[index]? = some found at hfound
    change found.Resolves metamodel ((m.sources ++ [source]).take index)
    by_cases old : index < m.sources.length
    · rw [List.getElem?_append_left old] at hfound
      rw [List.take_append_of_le_length (by omega)]
      exact h.sources index found hfound
    · have bound := (List.getElem?_eq_some_iff.1 hfound).1
      obtain rfl : index = m.sources.length := by
        rw [List.length_append, List.length_singleton] at bound
        omega
      obtain rfl : source = found := by simpa using hfound
      rw [List.take_left' rfl]
      exact resolves
  · intro e' he'
    rcases exprs e' he' with rfl | before
    · exact .tupleOf (parts_formed source h.element)
    · rw [longer]
      exact (h.exprs e' before).append _

/-! ### Validation -/

theorem checkExpr_of_formed (formed : e.Formed metamodel (m.sources.map Source.entity)) :
    m.checkExpr e = .ok () := by
  have supported : e.firstUnsupported? = none := by
    refine List.findSome?_eq_none_iff.2 fun n hn => ?_
    cases formed.of_mem_nodes hn <;> rfl
  rw [checkExpr, supported]
  refine forM_ok_iff.2 fun id hid => ?_
  obtain ⟨entity, hn⟩ := Expr.mem_sources.1 hid
  cases formed.of_mem_nodes hn with
  | source known =>
    have bound := (List.getElem?_eq_some_iff.1 known).1
    rw [List.length_map] at bound
    rw [checkSource, if_pos bound]

/-- Expressions that pass refer to sources there are. -/
theorem bound_of_checkExpr (h : m.checkExpr e = .ok ()) {id : Nat} {entity : String}
    (hn : .source id entity ∈ e.nodes) : id < m.sources.length := by
  unfold checkExpr at h
  split at h
  · cases h
  · exact checkSource_ok (forM_ok_iff.1 h id (Expr.mem_sources.2 ⟨entity, hn⟩))

theorem parent_lt_of_checkSources {first index parent : Nat} {sources : List Source}
    {names : List String} {entity : String} (h : checkSources first sources = .ok ())
    (found : sources[index]? = some (.path parent names entity)) : parent < first + index := by
  induction sources generalizing first index with
  | nil => cases found
  | cons source rest ih =>
    cases index with
    | zero =>
      obtain rfl : source = .path parent names entity := Option.some.inj found
      rw [checkSources] at h
      split at h
      · assumption
      · cases h
    | succ index =>
      have later : checkSources (first + 1) rest = .ok () := by
        cases source with
        | root _ => exact h
        | path _ _ _ =>
          rw [checkSources] at h
          split at h
          · exact h
          · cases h
      have earlier := ih later found
      omega

/-- Where paths resolve, the sources from an index on have earlier parents. -/
theorem checkSources_of_resolves (before rest : List Source)
    (resolves : ∀ index (source : Source), (before ++ rest)[index]? = some source →
      source.Resolves metamodel ((before ++ rest).take index)) :
    checkSources before.length rest = .ok () := by
  induction rest generalizing before with
  | nil => rfl
  | cons source rest ih =>
    have later : checkSources (before.length + 1) rest = .ok () := by
      have shifted := ih (before ++ [source])
      rw [List.append_assoc, List.singleton_append, List.length_append] at shifted
      exact shifted resolves
    cases source with
    | root entity => exact later
    | path parent names entity =>
      have found : (before ++ .path parent names entity :: rest)[before.length]? =
          some (.path parent names entity) := by simp
      obtain ⟨origin, horigin, -⟩ := resolves _ _ found
      rw [List.take_left' rfl] at horigin
      rw [checkSources, if_pos (List.getElem?_eq_some_iff.1 horigin).1]
      exact later

theorem Sound.validate (h : m.Sound metamodel) : m.validate = .ok () := by
  have sources : checkSources 0 m.sources = .ok () :=
    checkSources_of_resolves [] m.sources h.sources
  have exprs : m.exprs.forM m.checkExpr = .ok () :=
    forM_ok_iff.2 fun e he => checkExpr_of_formed (h.exprs e he)
  exact bind_ok_iff.2 ⟨(), sources, exprs⟩

end QueryModel
end EntityQuery
