import EntityQuery.Proofs.Libraries.Plain
import EntityQuery.Proofs.Pipeline.Aggregation
import EntityQuery.Proofs.Pipeline.Nodes
import EntityQuery.Proofs.Pipeline.Requests
import EntityQuery.Proofs.Query.Lexing

/-! Queries of pipelines can be read: whatever the operations, the text of each query that is sent
is read as its tokens, provided that all names in it are identifiers. -/
namespace EntityQuery

theorem Expr.isFinite_of_isPlainNode {n : Expr} (h : n.isPlainNode) : n.IsFinite := by
  rintro x rfl
  cases h

/-- Only finite floats become constants. -/
theorem Expr.isFinite_constant {v : Value} {l : Literal} (h : Literal.ofValue? v = some l) :
    (constant l).IsFinite := by
  rintro x same
  obtain rfl := Expr.constant.inj same
  cases v with
  | float y =>
    rw [Literal.ofValue?] at h
    split at h
    · next finite =>
      obtain rfl := Literal.float.inj (Option.some.inj h)
      exact finite
    · cases h
  | _ => cases h

theorem Expr.isFinite_conditional (c a b : Expr) : (conditional c a b).IsFinite := by
  rintro x ⟨⟩

namespace QueryModel

variable {metamodel : Metamodel} {m : QueryModel}

theorem Sound.parents (h : m.Sound metamodel) (parent : Nat) (names : List String)
    (entity : String) (mem : .path parent names entity ∈ m.sources) :
    parent < m.sources.length := by
  obtain ⟨index, found⟩ := List.mem_iff_getElem?.1 mem
  obtain ⟨origin, before, -⟩ := h.sources index _ found
  have bound := (List.getElem?_eq_some_iff.1 before).1
  rw [List.length_take] at bound
  omega

theorem Sound.grounded (h : m.Sound metamodel) (finite : m.Throughout Expr.IsFinite) :
    m.Grounded metamodel where
  nonempty := by
    obtain ⟨entity, rest, root⟩ := h.root
    rw [root]
    exact Nat.zero_lt_succ _
  parents := h.parents
  nodes e he n hn := .inl ((h.exprs e he).of_mem_nodes hn)
  finite := finite

theorem grounded_root (entity : String) : (root entity).Grounded metamodel where
  nonempty := Nat.one_pos
  parents parent names other mem := by
    cases List.mem_singleton.1 mem
  nodes := List.forall_mem_nil _
  finite := List.forall_mem_nil _

theorem mem_exprs_of_aggregated {kind : Aggregate} {argument e : Expr}
    (he : e ∈ (m.aggregated kind argument).exprs) :
    e = .aggregate kind argument m.distinct ∨ e ∈ m.exprs := by
  rcases mem_exprs.1 he with kept | aggregates | ⟨key, none, -⟩
  · exact .inr (mem_exprs.2 (.inl kept))
  · exact .inl (Option.some.inj aggregates).symm
  · cases none

theorem grounded_aggregated {kind : Aggregate} {argument : Expr} (h : m.Grounded metamodel)
    (formed : argument.Formed metamodel (m.sources.map Source.entity))
    (finite : argument.Throughout Expr.IsFinite) :
    (m.aggregated kind argument).Grounded metamodel := by
  refine ⟨h.nonempty, h.parents, fun e he n hn => ?_, fun e he n hn => ?_⟩
  · rcases mem_exprs_of_aggregated he with rfl | before
    · rcases List.mem_cons.1 hn with rfl | below
      · exact .inr ⟨_, _, _, rfl⟩
      · exact .inl (formed.of_mem_nodes below)
    · exact h.nodes e before n hn
  · rcases mem_exprs_of_aggregated he with rfl | before
    · rcases List.mem_cons.1 hn with rfl | below
      · exact Expr.isFinite_of_isPlainNode rfl
      · exact finite n below
    · exact h.finite e before n hn

end QueryModel

namespace Pipeline

variable {α : Type} {p : Pipeline} {m : QueryModel}

theorem Reachable.finite (h : Reachable p) : p.model.Throughout Expr.IsFinite :=
  h.throughout (fun _ => Expr.isFinite_of_isPlainNode) (fun _ _ => Expr.isFinite_constant)
    Expr.isFinite_conditional

theorem Reachable.finite_of_aggregable {e : Expr} (h : Reachable p)
    (aggregable : Aggregable p e) : e.Throughout Expr.IsFinite := by
  have element := h.finite.element fun _ => Expr.isFinite_of_isPlainNode
  cases aggregable with
  | lambda form =>
    exact throughout_of_queryForm (fun _ => Expr.isFinite_of_isPlainNode)
      (fun _ _ => Expr.isFinite_constant) Expr.isFinite_conditional form element
  | first => exact List.forall_mem_singleton.2 (Expr.isFinite_of_isPlainNode rfl)
  | column column => exact Expr.throughout_columns element column

theorem Reachable.grounded_aggregateModel {kind : Aggregate} {f : Option Lambda}
    (h : Reachable p) (merged : p.aggregateModel kind f = .ok m) : m.Grounded p.metamodel := by
  obtain ⟨argument, aggregable, rfl⟩ := aggregateModel_eq merged
  exact QueryModel.grounded_aggregated (h.sound.grounded h.finite)
    (h.formed_of_aggregable aggregable) (h.finite_of_aggregable aggregable)

theorem Reachable.grounded_of_sends {t : Terminal α} (h : Reachable p) (sends : p.Sends t m) :
    m.Grounded p.metamodel := by
  cases sends with
  | own => exact h.sound.grounded h.finite
  | aggregate merged => exact h.grounded_aggregateModel merged
  | count merged => exact h.grounded_aggregateModel merged
  | entities runs streams => exact QueryModel.grounded_root _

/-- However a pipeline was built and whatever is asked of it: if all names in a query that it sends
are identifiers, the text is read as the lexemes of its tokens, in either dialect, and no comment
starts in it. -/
theorem lexemes_of_reachable [Libraries] [Libraries.QueryNumerals] {t : Terminal α}
    (h : Reachable p) (sends : p.Sends t m)
    (identifiers : ∀ name ∈ m.names, isIdentifier name) (dialect : Dialect) :
    Grammar.pieces (m.text dialect) =
      some (((m.tokens dialect).flatMap (Token.lexemes dialect)).map .lexeme) ∧
    Grammar.lex (m.text dialect) = some ((m.tokens dialect).flatMap (Token.lexemes dialect)) := by
  have read := QueryModel.pieces_text (d := dialect) (h.grounded_of_sends sends) identifiers
  refine ⟨read, ?_⟩
  rw [Grammar.lex_eq, read, Option.map_some, List.filterMap_map]
  simp [Grammar.Piece.lexeme?, Function.comp_def]

/-- `fun c => c.name = "O'Neil"`, then `fun c => -(-length c.name) - -1`. -/
def namesakes : Pipeline :=
  ((Provider.all { metamodel := shop } "Customer").filter
    (.traced 1 [] (.binary .eq (.field (.param 0) "name") (.const (.string "O'Neil"))))).select
    (.traced 1 [] (.binary .sub
      (.unary .neg (.unary .neg (.apply .length (.field (.param 0) "name"))))
      (.const (.int (-1)))))

def namesakesLexemes : List Grammar.Lexeme :=
  [.word "SELECT", .mark "-", .mark "(", .mark "-", .word "LENGTH", .mark "(", .word "A", .mark ".",
    .word "name", .mark ")", .mark ")", .mark "-", .mark "-", .number "1", .word "FROM",
    .word "Customer", .word "A", .word "WHERE", .word "A", .mark ".", .word "name", .mark "=",
    .string "O'Neil"]

open Libraries.Plain in
theorem lexemes_of_namesakes :
    namesakes.model.text .jpql =
      "SELECT -(-LENGTH(A.name)) - -1 FROM Customer A WHERE A.name = 'O''Neil'" ∧
    Grammar.pieces (namesakes.model.text .jpql) = some (namesakesLexemes.map .lexeme) ∧
    Grammar.lex (namesakes.model.text .jpql) = some namesakesLexemes := by
  have reached : Reachable namesakes :=
    ⟨_, _, .tail (.tail .refl (.operation (.filter _))) (.operation (.select _))⟩
  have identifiers : ∀ name ∈ namesakes.model.names, isIdentifier name := by decide +kernel
  have text : namesakes.model.text .jpql =
      "SELECT -(-LENGTH(A.name)) - -1 FROM Customer A WHERE A.name = 'O''Neil'" := by
    decide +kernel
  have lexemes : (namesakes.model.tokens .jpql).flatMap (Token.lexemes .jpql) =
      namesakesLexemes := by
    decide +kernel
  have read := lexemes_of_reachable reached (.own (t := .toList)) identifiers .jpql
  rw [lexemes] at read
  exact ⟨text, read⟩

end Pipeline
end EntityQuery
