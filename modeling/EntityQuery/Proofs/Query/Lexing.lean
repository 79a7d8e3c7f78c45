import EntityQuery.Proofs.Query.Spacing
import EntityQuery.Proofs.Query.Validity

/-! Query text is read as the tokens that it was made of, if its names are identifiers and its
constants finite. -/
namespace EntityQuery

/-- A float constant is finite. -/
def Expr.IsFinite (e : Expr) : Prop := ∀ x, e = .constant (.float x) → Number.isFinite x

/-- The names that a node has of its own. -/
def Expr.ownNames : Expr → List String
  | parameter name _ => [name]
  | field _ path _ => path
  | _ => []

def Source.ownNames : Source → List String
  | root entity => [entity]
  | path _ names _ => names

/-- The names of entity types, attributes and parameters that a query has. -/
def QueryModel.names (m : QueryModel) : List String :=
  m.sources.flatMap Source.ownNames ++ m.exprs.flatMap fun e => e.nodes.flatMap Expr.ownNames

namespace QueryModel

open Emission Grammar

variable {metamodel : Metamodel} {m : QueryModel} {d : Dialect}

theorem readable_aliasOf {id : Nat} (h : id < m.sources.length) :
    ((m.emissionContext d).aliasOf id).Readable := by
  obtain ⟨name, known, named⟩ := aliasOf_eq d h
  rw [named]
  exact isName_of_isIdentifier (Alias.isIdentifier_of_mem_names (List.mem_of_getElem? known))

/-- Paths start at sources that exist, expressions are formed over them or aggregate such ones, and
constants are finite. -/
structure Grounded (metamodel : Metamodel) (m : QueryModel) : Prop where
  nonempty : 0 < m.sources.length
  parents : ∀ parent names entity, .path parent names entity ∈ m.sources →
    parent < m.sources.length
  nodes : ∀ e ∈ m.exprs, ∀ n ∈ e.nodes, n.Formed metamodel (m.sources.map Source.entity) ∨
    ∃ kind argument distinct, n = .aggregate kind argument distinct
  finite : ∀ e ∈ m.exprs, ∀ n ∈ e.nodes, n.IsFinite

variable {e n : Expr} {name : String}

theorem mem_names_of_node (he : e ∈ m.exprs) (hn : n ∈ e.nodes) (h : name ∈ n.ownNames) :
    name ∈ m.names :=
  List.mem_append_right _ (List.mem_flatMap.2 ⟨e, he, List.mem_flatMap.2 ⟨n, hn, h⟩⟩)

theorem mem_names_of_source {source : Source} (hsource : source ∈ m.sources)
    (h : name ∈ source.ownNames) : name ∈ m.names :=
  List.mem_append_left _ (List.mem_flatMap.2 ⟨source, hsource, h⟩)

variable (grounded : m.Grounded metamodel) (identifiers : ∀ name ∈ m.names, isIdentifier name)
include grounded identifiers

theorem readable_ownTokens (he : e ∈ m.exprs) (hn : n ∈ e.nodes) :
    ∀ t ∈ n.ownTokens (m.emissionContext d), t.Readable := by
  have function {name : String} (h : isIdentifier (String.ofList (Text.upper name.toList))) :
      (Token.function name).Readable := by
    have word := isName_of_isIdentifier h
    rwa [String.toList_ofList] at word
  intro t ht
  cases n with
  | constant l =>
    cases l with
    | float x =>
      obtain rfl := List.mem_singleton.1 ht
      exact grounded.finite e he _ hn x rfl
    | string s =>
      obtain rfl := List.mem_singleton.1 ht
      exact trivial
    | _ => cases ht
  | parameter name value =>
    obtain rfl := List.mem_singleton.1 ht
    exact isName_of_isIdentifier (identifiers name (mem_names_of_node he hn List.mem_cons_self))
  | source id entity =>
    obtain rfl := List.mem_singleton.1 ht
    rcases grounded.nodes e he _ hn with formed | ⟨_, _, _, ⟨⟩⟩
    cases formed with
    | source known =>
      have bound := (List.getElem?_eq_some_iff.1 known).1
      rw [List.length_map] at bound
      exact readable_aliasOf bound
  | field base path type =>
    obtain ⟨name, hname, rfl⟩ := List.mem_map.1 ht
    exact isName_of_isIdentifier (identifiers name (mem_names_of_node he hn hname))
  | binary op left right =>
    cases op with
    | mod | concat =>
      obtain rfl := List.mem_singleton.1 ht
      exact function rfl
    | _ => cases ht
  | aggregate kind argument distinct =>
    obtain rfl := List.mem_singleton.1 ht
    cases kind <;> exact function rfl
  | apply fn arguments =>
    obtain rfl := List.mem_singleton.1 ht
    cases fn <;> exact function rfl
  | unary op operand => cases ht
  | conditional c a b => cases ht
  | tuple elements nesting => cases ht
  | unsupported reason => cases ht

theorem legible_of_mem_nodes (he : e ∈ m.exprs) (hn : n ∈ e.nodes) :
    n.Legible (m.emissionContext d) where
  own := readable_ownTokens grounded identifiers he hn
  origin base path type same := by
    subst same
    rcases grounded.nodes e he _ hn with formed | ⟨_, _, _, ⟨⟩⟩
    cases formed with
    | field formed origin typed long => exact origin
  negated operand same := by
    subst same
    rcases grounded.nodes e he _ hn with formed | ⟨_, _, _, ⟨⟩⟩
    cases formed with
    | unary formed admitted =>
      have numeric : ExprType.numeric.accepts operand.type := by
        simpa [QueryForm.admitsUnary] using admitted
      cases operand with
      | tuple elements nesting => cases numeric
      | _ => rfl

theorem readable_tokens : ∀ t ∈ m.tokens d, t.Readable := by
  refine forall_tokens ?_ (fun id => readable_aliasOf) ?_ ?_ ?_
  · intro t plain
    cases t <;> first | exact trivial | cases plain
  · intro n hn
    cases selected : m.projection with
    | some e =>
      rw [element, selected] at hn
      exact readable_ownTokens grounded identifiers (mem_exprs.2 (.inr (.inl selected))) hn
    | none =>
      rw [element, selected] at hn
      obtain rfl := List.mem_singleton.1 hn
      exact List.forall_mem_singleton.2 (readable_aliasOf grounded.nonempty)
  · exact fun e he n hn => readable_ownTokens grounded identifiers he hn
  · intro source hsource
    have named {name : String} (h : name ∈ source.ownNames) : IsName name.toList :=
      isName_of_isIdentifier (identifiers name (mem_names_of_source hsource h))
    cases source with
    | root entity => exact List.forall_mem_singleton.2 (named List.mem_cons_self)
    | path parent path entity =>
      refine List.forall_mem_cons.2 ⟨readable_aliasOf (grounded.parents _ _ _ hsource), ?_⟩
      intro t ht
      obtain ⟨name, hname, rfl⟩ := List.mem_map.1 ht
      exact named hname

/-- The text of a query is read as the lexemes of its tokens, and it holds no comment. -/
theorem pieces_text [Libraries] [Libraries.QueryNumerals] :
    pieces (m.text d) = some (((m.tokens d).flatMap (Token.lexemes d)).map .lexeme) :=
  (reads_tokensText (readable_tokens grounded identifiers) (separated_tokens fun _ he _ hn =>
    legible_of_mem_nodes grounded identifiers he hn)).pieces

end QueryModel
end EntityQuery
