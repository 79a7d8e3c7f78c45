import EntityQuery.Libraries.Plain
import EntityQuery.Proofs.Query.Binding
import EntityQuery.Proofs.Query.Validity

/-! The FROM clause of a query, read from its tokens. It has an item for each source, which
introduces the name of the source, and a path starts at a name that an earlier item introduces. What
compiles uses no other names, except that without sources and projection it selects a nameless
source. -/
namespace EntityQuery

namespace Token

def isSpace : Token → Bool
  | space => true
  | _ => false

def isComma : Token → Bool
  | comma => true
  | _ => false

def isFrom : Token → Bool
  | word .FROM => true
  | _ => false

/-- Words at which a clause after the projection begins. -/
def startsClause : Token → Bool
  | word .FROM | word .WHERE | word .ORDER_BY => true
  | _ => false

def sourceName? : Token → Option String
  | sourceName name => some name
  | _ => none

/-- Tokens of the paths and names in a FROM clause. -/
def isReference : Token → Bool
  | dot | sourceName _ | entity _ | attributeName _ => true
  | _ => false

variable {t : Token}

theorem isSpace_of_isReference (h : t.isReference) : !t.isSpace := by
  cases t <;> first | rfl | cases h

theorem isComma_of_isReference (h : t.isReference) : t.isComma = false := by
  cases t <;> first | rfl | cases h

theorem startsClause_of_isReference (h : t.isReference) : t.startsClause = false := by
  cases t <;> first | rfl | cases h

theorem startsClause_of_isInner (h : t.isInner) : t.startsClause = false := by
  unfold startsClause
  split <;> first | rfl | cases h

theorem isFrom_eq_false (h : t.startsClause = false) : t.isFrom = false := by
  unfold isFrom
  split
  · cases h
  · rfl

end Token

/-- What is written between FROM and the next clause, without blanks. -/
def fromClause (ts : List Token) : List Token :=
  let written := ts.filter fun t => !t.isSpace
  ((written.dropWhile fun t => !t.isFrom).drop 1).takeWhile fun t => !t.startsClause

def fromItems (ts : List Token) : List (List Token) := (fromClause ts).splitOnP Token.isComma

/-- An item introduces the name that it ends with. -/
def introduced? (item : List Token) : Option String := item.getLast?.bind Token.sourceName?

/-- The names that a FROM clause introduces, from left to right. -/
def introduced (ts : List Token) : List String := (fromItems ts).filterMap introduced?

/-- Every name of a source that a query uses is introduced, every source introduces one name, no two
the same, and a path starts at the name of its parent, which is introduced to its left. -/
structure Declares (sources : List Source) (ts : List Token) : Prop where
  used : ∀ name, .sourceName name ∈ ts → name ≠ "" ∧ name ∈ introduced ts
  distinct : (introduced ts).Nodup
  length : (introduced ts).length = sources.length
  own : ∀ id < sources.length, ∃ item, (fromItems ts)[id]? = some item ∧
    introduced? item = (introduced ts)[id]?
  parent : ∀ id parent names entity, sources[id]? = some (.path parent names entity) →
    ∃ item name, (fromItems ts)[id]? = some item ∧ item.head? = some (.sourceName name) ∧
      (introduced ts)[parent]? = some name ∧ name ∈ (introduced ts).take id

/-- A FROM clause is what stands between the word and the next clause. -/
theorem fromClause_append {before clause predicate ordering : List Token}
    (early : ∀ t ∈ before, t.startsClause = false) (within : ∀ t ∈ clause, t.startsClause = false)
    (next : ((predicate ++ ordering).filter fun t => !t.isSpace).takeWhile
      (fun t => !t.startsClause) = []) :
    fromClause (before ++ Emission.spaced [.word .FROM] ++ clause ++ predicate ++ ordering) =
      clause.filter fun t => !t.isSpace := by
  have skipped : ∀ t ∈ before.filter (fun t => !t.isSpace), !t.isFrom := fun t ht => by
    rw [Token.isFrom_eq_false (early t (List.mem_of_mem_filter ht))]
    rfl
  have taken : ∀ t ∈ clause.filter (fun t => !t.isSpace), !t.startsClause := fun t ht => by
    rw [within t (List.mem_of_mem_filter ht)]
    rfl
  -- FROM is the first word of its kind, as none of `before` begins a clause.
  rw [fromClause]
  simp only [List.append_assoc, List.filter_append before]
  rw [List.dropWhile_append_of_pos skipped]
  change ((clause ++ (predicate ++ ordering)).filter _).takeWhile _ = _
  rw [List.filter_append, List.takeWhile_append_of_pos taken, next, List.append_nil]

namespace Emission

variable {ctx : Context} {parts : List (List Token)}

theorem commaSeparated_cons_cons (first second : List Token) (more : List (List Token)) :
    commaSeparated (first :: second :: more) =
      first ++ .comma :: .space :: commaSeparated (second :: more) := by
  simp [commaSeparated]

/-- Parts without commas are what commas separate. -/
theorem splitOnP_commaSeparated (some : parts ≠ [])
    (noComma : ∀ ts ∈ parts, ∀ t ∈ ts, t.isComma = false) :
    ((commaSeparated parts).filter fun t => !t.isSpace).splitOnP Token.isComma =
      parts.map fun ts => ts.filter fun t => !t.isSpace := by
  have bare {ts : List Token} (h : ts ∈ parts) :
      ∀ t ∈ ts.filter fun t => !t.isSpace, t.isComma = false :=
    fun t ht => noComma ts h t (List.mem_of_mem_filter ht)
  induction parts with
  | nil => exact absurd rfl some
  | cons first rest ih =>
    cases rest with
    | nil =>
      rw [commaSeparated, List.flatMap_nil, List.append_nil,
        List.splitOnP_eq_singleton (bare List.mem_cons_self)]
      rfl
    | cons second more =>
      rw [commaSeparated_cons_cons, List.filter_append]
      refine (List.splitOnP_append_cons_of_forall_mem (bare List.mem_cons_self) _ rfl _).trans ?_
      refine congrArg (_ :: ·) (ih nofun (fun ts hts => noComma ts (List.mem_cons_of_mem _ hts)) ?_)
      exact fun hts => bare (List.mem_cons_of_mem _ hts)

/-- A source and the name that it gets. -/
def item (ctx : Context) (source : Source) (id : Nat) : List Token :=
  sourceTokens ctx source ++ [ctx.aliasOf id]

theorem isReference_of_mem_item {source : Source} {id : Nat} {t : Token}
    (h : t ∈ item ctx source id) : t.isReference := by
  rcases List.mem_append.1 h with h | h
  · cases source with
    | root name =>
      obtain rfl := List.mem_singleton.1 h
      rfl
    | path parent names entity =>
      rcases List.mem_cons.1 h with rfl | h
      · rfl
      obtain ⟨name, -, h⟩ := List.mem_flatMap.1 h
      rcases List.mem_cons.1 h with rfl | h
      · rfl
      · obtain rfl := List.mem_singleton.1 h
        rfl
  · obtain rfl := List.mem_singleton.1 h
    rfl

theorem introduced?_item (source : Source) (id : Nat) :
    introduced? (item ctx source id) = some (ctx.aliases[id]?.getD "") := by
  rw [introduced?, item, List.getLast?_append]
  rfl

theorem filter_item_spaced (source : Source) (id : Nat) :
    (sourceTokens ctx source ++ [.space, ctx.aliasOf id]).filter (fun t => !t.isSpace) =
      item ctx source id := by
  have kept : ∀ t ∈ sourceTokens ctx source, !t.isSpace := fun t h =>
    Token.isSpace_of_isReference (isReference_of_mem_item (List.mem_append_left [ctx.aliasOf id] h))
  rw [List.filter_append, List.filter_eq_self.2 kept]
  rfl

variable {sources : List Source}

theorem isReference_or_of_mem_part {ts : List Token}
    (h : ts ∈ sources.zipIdx.map fun (source, id) =>
      sourceTokens ctx source ++ [.space, ctx.aliasOf id]) :
    ∀ t ∈ ts, t = .space ∨ t.isReference := by
  obtain ⟨⟨source, id⟩, -, rfl⟩ := List.mem_map.1 h
  intro t ht
  rcases List.mem_append.1 ht with path | named
  · exact .inr (isReference_of_mem_item (List.mem_append_left [ctx.aliasOf id] path))
  · rcases List.mem_cons.1 named with rfl | named
    · exact .inl rfl
    · exact .inr (isReference_of_mem_item (List.mem_append_right (sourceTokens ctx source) named))

theorem splitOnP_fromTokens (some : sources ≠ []) :
    ((fromTokens ctx sources).filter fun t => !t.isSpace).splitOnP Token.isComma =
      sources.zipIdx.map fun (source, id) => item ctx source id := by
  have parts : (sources.zipIdx.map fun (source, id) =>
      sourceTokens ctx source ++ [Token.space, ctx.aliasOf id]) ≠ [] := by simpa using some
  rw [fromTokens, splitOnP_commaSeparated parts fun ts hts t ht => ?_, List.map_map]
  · exact List.map_congr_left fun (source, id) _ => filter_item_spaced source id
  · rcases isReference_or_of_mem_part hts t ht with rfl | reference
    · rfl
    · exact Token.isComma_of_isReference reference

theorem startsClause_fromTokens : ∀ t ∈ fromTokens ctx sources, t.startsClause = false := by
  refine forall_commaSeparated (fun t => Token.startsClause_of_isInner) fun ts hts t ht => ?_
  rcases isReference_or_of_mem_part hts t ht with rfl | reference
  · rfl
  · exact Token.startsClause_of_isReference reference

theorem startsClause_ownTokens {e : Expr} : ∀ t ∈ e.ownTokens ctx, t.startsClause = false := by
  unfold Expr.ownTokens
  split <;> simp [Token.startsClause, Context.aliasOf]

theorem startsClause_projectionTokens {projection : Option Expr} :
    ∀ t ∈ projectionTokens ctx projection, t.startsClause = false := by
  have inner (t : Token) : t.isInner → t.startsClause = false := Token.startsClause_of_isInner
  cases projection with
  | none => exact List.forall_mem_singleton.2 rfl
  | some e =>
    exact forall_commaSeparated inner
      (forall_renderValues inner _ fun n _ => startsClause_ownTokens)

end Emission

/-- A node with a name of its own for a source is that source. -/
theorem Expr.source_of_sourceName_mem {n : Expr} {ctx : Emission.Context} {name : String}
    (h : .sourceName name ∈ n.ownTokens ctx) :
    ∃ id entity, n = .source id entity ∧ .sourceName name = ctx.aliasOf id := by
  unfold ownTokens at h
  split at h
  case h_4 id entity => exact ⟨id, entity, rfl, List.mem_singleton.1 h⟩
  all_goals simp at h

namespace QueryModel

open Emission

variable {m : QueryModel} {dialect : Dialect} {q : CompiledQuery}

theorem fromClause_tokens : fromClause (m.tokens dialect) =
    (fromTokens (m.emissionContext dialect) m.sources).filter fun t => !t.isSpace := by
  unfold tokens
  refine fromClause_append ?_ startsClause_fromTokens ?_
  · simp only [List.forall_mem_append]
    refine ⟨⟨?_, ?_⟩, startsClause_projectionTokens⟩
    · exact List.forall_mem_cons.2 ⟨rfl, List.forall_mem_singleton.2 rfl⟩
    · split
      · exact List.forall_mem_cons.2 ⟨rfl, List.forall_mem_singleton.2 rfl⟩
      · exact List.forall_mem_nil _
  · cases m.predicate with
    | some e => rfl
    | none => cases m.ordering <;> rfl

theorem fromItems_tokens (some : m.sources ≠ []) : fromItems (m.tokens dialect) =
    m.sources.zipIdx.map fun (source, id) =>
      Emission.item (m.emissionContext dialect) source id := by
  rw [fromItems, fromClause_tokens, splitOnP_fromTokens some]

/-- The names are those that the sources have, in their order. -/
theorem introduced_tokens :
    introduced (m.tokens dialect) = Alias.names m.sources.length := by
  by_cases empty : m.sources = []
  · rw [introduced, fromItems, fromClause_tokens, empty]
    rfl
  · have named : introduced? ∘ (fun (source, id) =>
        Emission.item (m.emissionContext dialect) source id) =
        Option.some ∘ (fun id => (Alias.names m.sources.length)[id]?.getD "") ∘ Prod.snd :=
      funext fun (source, id) => introduced?_item source id
    rw [introduced, fromItems_tokens empty, List.filterMap_map, named, List.filterMap_eq_map,
      ← List.map_map, List.zipIdx_map_snd]
    refine List.ext_getElem (by simp [Alias.length_names]) fun id _ known => ?_
    simp [List.getElem?_eq_getElem known]

theorem fromItems_getElem? {id : Nat} {source : Source} (found : m.sources[id]? = some source) :
    (fromItems (m.tokens dialect))[id]? =
      some (Emission.item (m.emissionContext dialect) source id) := by
  have some : m.sources ≠ [] := List.ne_nil_of_mem (List.mem_of_getElem? found)
  rw [fromItems_tokens some, List.getElem?_map, List.getElem?_zipIdx, found, Nat.zero_add]
  rfl

theorem mem_names_of_lt {id : Nat} (h : id < m.sources.length) {name : String}
    (named : .sourceName name = (m.emissionContext dialect).aliasOf id) :
    name ∈ Alias.names m.sources.length := by
  obtain ⟨_, known, same⟩ := aliasOf_eq dialect h
  obtain rfl := Token.sourceName.inj (named.trans same)
  exact List.mem_of_getElem? known

theorem bound_of_mem_exprs (valid : m.validate = .ok ()) {e : Expr} (he : e ∈ m.exprs) :
    ∀ id entity, .source id entity ∈ e.nodes → id < m.sources.length := by
  obtain ⟨_, -, checked⟩ := bind_ok_iff.1 valid
  exact fun id entity hn => bound_of_checkExpr (forM_ok_iff.1 checked e he) hn

/-- The element of a model that validates refers to sources that are there, unless it is the first
of none. -/
theorem bound_of_mem_element (valid : m.validate = .ok ())
    (selects : ¬(m.sources = [] ∧ m.projection = none)) :
    ∀ id entity, .source id entity ∈ m.element.nodes → id < m.sources.length := by
  intro id entity hn
  cases selected : m.projection with
  | some e =>
    rw [QueryModel.element, selected] at hn
    exact bound_of_mem_exprs valid (mem_exprs.2 (.inr (.inl selected))) id entity hn
  | none =>
    rw [QueryModel.element, selected] at hn
    obtain ⟨rfl, -⟩ := Expr.source.inj (List.mem_singleton.1 hn)
    exact List.length_pos_of_ne_nil fun empty => selects ⟨empty, selected⟩

theorem parent_lt_of_validate (valid : m.validate = .ok ()) {id parent : Nat} {names : List String}
    {entity : String} (found : m.sources[id]? = some (.path parent names entity)) :
    parent < id := by
  obtain ⟨_, parents, -⟩ := bind_ok_iff.1 valid
  rw [← Nat.zero_add id]
  exact parent_lt_of_checkSources parents found

theorem mem_names_of_mem_tokens (valid : m.validate = .ok ())
    (selects : ¬(m.sources = [] ∧ m.projection = none)) {name : String}
    (h : .sourceName name ∈ m.tokens dialect) : name ∈ Alias.names m.sources.length := by
  have node {e n : Expr} (bound : ∀ id entity, .source id entity ∈ e.nodes → id < m.sources.length)
      (hn : n ∈ e.nodes) : ∀ t ∈ n.ownTokens (m.emissionContext dialect), ∀ name,
        t = .sourceName name → name ∈ Alias.names m.sources.length := by
    rintro t own name rfl
    obtain ⟨id, entity, rfl, named⟩ := Expr.source_of_sourceName_mem own
    exact mem_names_of_lt (bound id entity hn) named
  -- Names of sources come from source nodes, from the items of FROM and from parents of paths.
  refine forall_tokens (P := fun t => ∀ name, t = .sourceName name →
    name ∈ Alias.names m.sources.length) ?_ ?_ ?_ ?_ ?_ _ h name rfl
  · rintro _ plain name rfl
    cases plain
  · exact fun id bound name named => mem_names_of_lt bound named.symm
  · exact fun n hn => node (bound_of_mem_element valid selects) hn
  · exact fun e he n hn => node (bound_of_mem_exprs valid he) hn
  · rintro source hsource _ own name rfl
    cases source with
    | root entity => cases List.mem_singleton.1 own
    | path parent names entity =>
      obtain ⟨index, found⟩ := List.mem_iff_getElem?.1 hsource
      have earlier := parent_lt_of_validate valid found
      have known := (List.getElem?_eq_some_iff.1 found).1
      rcases List.mem_cons.1 own with named | other
      · exact mem_names_of_lt (Nat.lt_trans earlier known) named
      · obtain ⟨_, -, other⟩ := List.mem_map.1 other
        cases other

/-- A path starts at the name of an earlier item. -/
theorem fromItems_path (valid : m.validate = .ok ()) {id parent : Nat} {names : List String}
    {entity : String} (found : m.sources[id]? = some (.path parent names entity)) :
    ∃ item name, (fromItems (m.tokens dialect))[id]? = some item ∧
      item.head? = some (.sourceName name) ∧
      (Alias.names m.sources.length)[parent]? = some name ∧
      name ∈ (Alias.names m.sources.length).take id := by
  have earlier := parent_lt_of_validate valid found
  have known := (List.getElem?_eq_some_iff.1 found).1
  obtain ⟨name, introduced, named⟩ := aliasOf_eq dialect (Nat.lt_trans earlier known)
  refine ⟨_, name, fromItems_getElem? found, congrArg some named, introduced, ?_⟩
  refine List.mem_of_getElem? (i := parent) ?_
  rw [List.getElem?_take_of_lt earlier, introduced]

theorem nameless_mem_tokens (empty : m.sources = []) (unselected : m.projection = none) :
    .sourceName "" ∈ m.tokens dialect := by
  simp [tokens, unselected, projectionTokens, Context.aliasOf, emissionContext, empty, Alias.names]

/-- The text of what compiles declares all names that it uses, unless there is neither a source nor
a projection. -/
theorem declares_iff_of_compile [Libraries] (h : m.compile dialect = .ok q) :
    q.text = tokensText dialect (m.tokens dialect) ∧
      (Declares m.sources (m.tokens dialect) ↔ ¬(m.sources = [] ∧ m.projection = none)) := by
  obtain ⟨valid, -, text, -⟩ := compile_ok h
  refine ⟨text, fun declared ⟨empty, unselected⟩ => ?_, fun selects => ?_⟩
  · exact (declared.used _ (nameless_mem_tokens empty unselected)).1 rfl
  · have used {name : String} (h : .sourceName name ∈ m.tokens dialect) :=
      mem_names_of_mem_tokens valid selects h
    constructor <;> rw [introduced_tokens]
    case used => exact fun name h => ⟨Alias.ne_empty_of_mem_names (used h), used h⟩
    case distinct => exact Alias.nodup_names _
    case length => exact Alias.length_names _
    case own =>
      intro id known
      obtain ⟨name, introduced, named⟩ := aliasOf_eq dialect known
      refine ⟨_, fromItems_getElem? (List.getElem?_eq_getElem known), ?_⟩
      rw [introduced?_item, introduced, emissionContext, introduced]
      rfl
    case parent => exact fun id parent names entity found => fromItems_path valid found

/-- Customers, their orders and the places these go to. -/
def orderPlaces : QueryModel where
  sources := [.root "Customer", .path 0 ["orders"] "Order", .path 1 ["route", "places"] "Place"]
  predicate := some (.unary .isNotNull (.source 2 "Place"))

open Libraries.Plain in
theorem declares_orderPlaces : ∃ q, orderPlaces.compile .hql = .ok q ∧
    q.text = "SELECT A FROM Customer A, A.orders B, B.route.places C WHERE C IS NOT NULL" ∧
    Declares orderPlaces.sources (orderPlaces.tokens .hql) := by
  obtain ⟨_, failed, -⟩ | ⟨q, compiled⟩ := compile_of_valid (m := orderPlaces) rfl .hql
  · cases failed
  · obtain ⟨text, declares⟩ := declares_iff_of_compile compiled
    exact ⟨q, compiled, text.trans (by decide +kernel), declares.2 nofun⟩

open Libraries.Plain in
/-- A model without sources validates, and selects a first source that has no name. -/
theorem not_declares_of_no_sources : ∃ q, compile { sources := [] } .hql = .ok q ∧
    q.text = "SELECT  FROM " ∧ ¬Declares [] (tokens { sources := [] } .hql) := by
  obtain ⟨_, failed, -⟩ | ⟨q, compiled⟩ := compile_of_valid (m := { sources := [] }) rfl .hql
  · cases failed
  · obtain ⟨-, -, text, -⟩ := compile_ok compiled
    refine ⟨q, compiled, text.trans (by decide +kernel), fun declared => ?_⟩
    exact (declared.used _ (nameless_mem_tokens rfl rfl)).1 rfl

end QueryModel
end EntityQuery
