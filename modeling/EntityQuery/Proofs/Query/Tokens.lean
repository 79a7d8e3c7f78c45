import EntityQuery.Proofs.Expr.Formed
import EntityQuery.Proofs.Query.Alias
import EntityQuery.Query.Emission

/-! Where the tokens of a query come from. Most of a query is made of tokens that all queries share;
the rest are names and values of its expressions and sources, and names of its own for the sources.
What holds of these holds of every token. -/
namespace EntityQuery

/-- Tokens that a query may have whatever it is about. -/
def Token.isPlain : Token → Bool
  | .sourceName _ | .entity _ | .attributeName _ | .parameter _ | .float _ | .string _
  | .function _ => false
  | _ => true

/-- Plain tokens that stand inside expressions. -/
def Token.isInner : Token → Bool
  | .word .SELECT | .word .FROM | .word .WHERE | .word .ORDER_BY | .word .ASC | .word .DESC => false
  | t => t.isPlain

theorem Token.isPlain_of_isInner {t : Token} (h : t.isInner) : t.isPlain := by
  unfold isInner at h
  split at h <;> first | rfl | exact h

/-- The tokens that a node has beside plain ones and the tokens below it. -/
def Expr.ownTokens (ctx : Emission.Context) : Expr → List Token
  | constant (.float x) => [.float x]
  | constant (.string s) => [.string s]
  | parameter name _ => [.parameter name]
  | source id _ => [ctx.aliasOf id]
  | field _ path _ => path.map .attributeName
  | binary .mod _ _ => [.function "MOD"]
  | binary .concat _ _ => [.function "CONCAT"]
  | aggregate kind _ _ => [.function kind.name]
  | apply fn _ => [.function fn.name]
  | _ => []

def Source.ownTokens (ctx : Emission.Context) : Source → List Token
  | root name => [.entity name]
  | path parent names _ => ctx.aliasOf parent :: names.map .attributeName

/-- All tokens of a rendering, in either position, have the property. -/
structure Rendering.All (P : Token → Prop) (r : Rendering) : Prop where
  value : ∀ t ∈ r.value, P t
  condition : ∀ t ∈ r.condition.tokens, P t

namespace Emission

variable {P : Token → Prop} {ctx : Context} {ts us : List Token}

theorem renderValues_eq (ctx : Context) (es : List Expr) :
    renderValues ctx es = es.map fun e => (render ctx e).value := by
  induction es with
  | nil => rfl
  | cons e es ih => rw [renderValues, ih, List.map_cons]

section Inner

variable (inner : ∀ t : Token, t.isInner → P t)
include inner

theorem forall_parens (h : ∀ t ∈ ts, P t) : ∀ t ∈ parens ts, P t := by
  simp only [parens, List.cons_append, List.forall_mem_cons, List.forall_mem_append]
  exact ⟨inner _ rfl, h, inner _ rfl, List.forall_mem_nil _⟩

theorem forall_parensIf {wrap : Bool} (h : ∀ t ∈ ts, P t) : ∀ t ∈ parensIf wrap ts, P t := by
  unfold parensIf
  split
  · exact forall_parens inner h
  · exact h

theorem forall_spaced (h : ∀ t ∈ ts, P t) : ∀ t ∈ spaced ts, P t := by
  simp only [spaced, List.cons_append, List.forall_mem_cons, List.forall_mem_append]
  exact ⟨inner _ rfl, h, inner _ rfl, List.forall_mem_nil _⟩

theorem forall_commaSeparated {parts : List (List Token)} (h : ∀ ts ∈ parts, ∀ t ∈ ts, P t) :
    ∀ t ∈ commaSeparated parts, P t := by
  cases parts with
  | nil => exact List.forall_mem_nil _
  | cons first rest =>
    obtain ⟨inFirst, inRest⟩ := List.forall_mem_cons.1 h
    refine List.forall_mem_append.2 ⟨inFirst, fun t ht => ?_⟩
    obtain ⟨ts, hts, ht⟩ := List.mem_flatMap.1 ht
    rcases List.mem_cons.1 ht with rfl | ht
    · exact inner _ rfl
    rcases List.mem_cons.1 ht with rfl | ht
    · exact inner _ rfl
    · exact inRest ts hts t ht

theorem forall_pathTokens {names : List String} (h : ∀ t ∈ names.map Token.attributeName, P t) :
    ∀ t ∈ pathTokens names, P t := by
  intro t ht
  obtain ⟨name, hname, ht⟩ := List.mem_flatMap.1 ht
  rcases List.mem_cons.1 ht with rfl | ht
  · exact inner _ rfl
  · obtain rfl := List.mem_singleton.1 ht
    exact h _ (List.mem_map_of_mem hname)

theorem forall_call {name : String} {arguments : List (List Token)} (named : P (.function name))
    (h : ∀ ts ∈ arguments, ∀ t ∈ ts, P t) : ∀ t ∈ Rendering.call name arguments, P t :=
  List.forall_mem_cons.2 ⟨named, forall_parens inner (forall_commaSeparated inner h)⟩

theorem forall_caseTokens {c a b : List Token} (hc : ∀ t ∈ c, P t) (ha : ∀ t ∈ a, P t)
    (hb : ∀ t ∈ b, P t) : ∀ t ∈ Rendering.caseTokens c a b, P t := by
  have words (ws : List Token) (h : ws.all Token.isInner) : ∀ t ∈ ws, P t :=
    fun t ht => inner t (List.all_eq_true.1 h t ht)
  simp only [Rendering.caseTokens, List.forall_mem_append]
  exact ⟨⟨⟨⟨⟨⟨words _ rfl, hc⟩, words _ rfl⟩, ha⟩, words _ rfl⟩, hb⟩, words _ rfl⟩

theorem all_ofValue (h : ∀ t ∈ ts, P t) : (Rendering.ofValue ts).All P where
  value := h
  condition := by
    simp only [Rendering.ofValue, Condition.tokens, List.forall_mem_append]
    refine ⟨⟨h, forall_spaced inner ?_⟩, ?_⟩
    · exact List.forall_mem_singleton.2 (inner _ rfl)
    · exact List.forall_mem_singleton.2 (inner _ rfl)

theorem all_ofCondition {c : Condition (List Token)} (h : ∀ t ∈ c.tokens, P t) :
    (Rendering.ofCondition c).All P where
  value := forall_caseTokens inner h (List.forall_mem_singleton.2 (inner _ rfl))
    (List.forall_mem_singleton.2 (inner _ rfl))
  condition := h

theorem forall_not {c : Condition (List Token)} (h : ∀ t ∈ c.tokens, P t) :
    ∀ t ∈ c.not.tokens, P t :=
  List.forall_mem_cons.2
    ⟨inner _ rfl, List.forall_mem_cons.2 ⟨inner _ rfl, forall_parens inner h⟩⟩

theorem forall_and {l r : Condition (List Token)} (hl : ∀ t ∈ l.tokens, P t)
    (hr : ∀ t ∈ r.tokens, P t) : ∀ t ∈ (l.and r).tokens, P t := by
  simp only [Condition.tokens, List.forall_mem_append]
  refine ⟨⟨forall_parensIf inner hl, forall_spaced inner ?_⟩, forall_parens inner hr⟩
  exact List.forall_mem_singleton.2 (inner _ rfl)

theorem forall_or {l r : Condition (List Token)} (hl : ∀ t ∈ l.tokens, P t)
    (hr : ∀ t ∈ r.tokens, P t) : ∀ t ∈ (l.or r).tokens, P t := by
  simp only [Condition.tokens, List.forall_mem_append]
  refine ⟨⟨hl, forall_spaced inner ?_⟩, forall_parens inner hr⟩
  exact List.forall_mem_singleton.2 (inner _ rfl)

theorem forall_operation {op : BinaryOp} {left right : Expr} (named : P (operatorToken op))
    (hl : ∀ t ∈ ts, P t) (hr : ∀ t ∈ us, P t) : ∀ t ∈ operation op left right ts us, P t := by
  simp only [operation, List.forall_mem_append]
  refine ⟨⟨forall_parensIf inner hl, forall_spaced inner ?_⟩, forall_parensIf inner hr⟩
  exact List.forall_mem_singleton.2 named

theorem all_renderBinary {op : BinaryOp} {left right : Expr} {l r : Rendering}
    (own : ∀ t ∈ (Expr.binary op left right).ownTokens ctx, P t) (hl : l.All P) (hr : r.All P) :
    (renderBinary ctx op left right l r).All P := by
  have operands : ∀ ts ∈ [l.value, r.value], ∀ t ∈ ts, P t := by
    simp only [List.forall_mem_cons]
    exact ⟨hl.value, hr.value, List.forall_mem_nil _⟩
  cases op with
  | and => exact all_ofCondition inner (forall_and inner hl.condition hr.condition)
  | or => exact all_ofCondition inner (forall_or inner hl.condition hr.condition)
  | mod => exact all_ofValue inner (forall_call inner (own _ List.mem_cons_self) operands)
  | concat =>
    unfold renderBinary
    dsimp only
    split
    · exact all_ofValue inner (forall_operation inner (inner _ rfl) hl.value hr.value)
    · exact all_ofValue inner (forall_call inner (own _ List.mem_cons_self) operands)
  | eq | ne | lt | gt | le | ge =>
    exact all_ofCondition inner (forall_operation inner (inner _ rfl) hl.value hr.value)
  | add | sub | mul | div =>
    exact all_ofValue inner (forall_operation inner (inner _ rfl) hl.value hr.value)

theorem all_renderUnary {op : UnaryOp} {operand : Expr} {x : Rendering} (h : x.All P) :
    (renderUnary op operand x).All P := by
  have tested {wrap : Bool} {w : Word} (test : (Token.word w).isInner) :
      ∀ t ∈ parensIf wrap x.value ++ [.space, .word w], P t := by
    refine List.forall_mem_append.2 ⟨forall_parensIf inner h.value, ?_⟩
    simp only [List.forall_mem_cons]
    exact ⟨inner _ rfl, inner _ test, List.forall_mem_nil _⟩
  cases op with
  | not => exact all_ofCondition inner (forall_not inner h.condition)
  | neg =>
    exact all_ofValue inner
      (List.forall_mem_cons.2 ⟨inner _ rfl, forall_parensIf inner h.value⟩)
  | isNull => exact all_ofCondition inner (tested rfl)
  | isNotNull => exact all_ofCondition inner (tested rfl)

theorem all_ofLiteral {l : Literal} (own : ∀ t ∈ (Expr.constant l).ownTokens ctx, P t) :
    (Rendering.ofLiteral l).All P := by
  have single (t : Token) (h : P t) : (Rendering.ofValue [t]).All P :=
    all_ofValue inner (List.forall_mem_singleton.2 h)
  cases l with
  | int n => exact single _ (inner _ rfl)
  | float x => exact single _ (own _ List.mem_cons_self)
  | string s => exact single _ (own _ List.mem_cons_self)
  | null => exact single _ (inner _ rfl)
  | bool b =>
    refine ⟨List.forall_mem_singleton.2 (inner _ rfl), ?_⟩
    simp only [Rendering.ofLiteral, Rendering.ofBool, Condition.tokens, List.cons_append,
      List.forall_mem_cons, List.forall_mem_append]
    refine ⟨inner _ rfl, forall_spaced inner ?_, inner _ rfl, List.forall_mem_nil _⟩
    exact List.forall_mem_singleton.2 (inner _ rfl)

end Inner

mutual

/-- The tokens of an expression have a property that its nodes' own tokens have. -/
theorem all_render (inner : ∀ t : Token, t.isInner → P t) :
    (e : Expr) → (∀ n ∈ e.nodes, ∀ t ∈ n.ownTokens ctx, P t) → (render ctx e).All P
  | .constant l, own => all_ofLiteral inner (own _ List.mem_cons_self)
  | .parameter name v, own => all_ofValue inner (own _ List.mem_cons_self)
  | .source id entity, own => all_ofValue inner (own _ List.mem_cons_self)
  | .field base path type, own => by
    have start := all_render inner base fun n hn => own n (List.mem_cons_of_mem _ hn)
    have names := forall_pathTokens inner (own _ List.mem_cons_self)
    exact all_ofValue inner (List.forall_mem_append.2 ⟨start.value, names⟩)
  | .binary op left right, own => by
    have inLeft := all_render inner left fun n hn =>
      own n (List.mem_cons_of_mem _ (List.mem_append_left _ hn))
    have inRight := all_render inner right fun n hn =>
      own n (List.mem_cons_of_mem _ (List.mem_append_right _ hn))
    exact all_renderBinary inner (own _ List.mem_cons_self) inLeft inRight
  | .unary op operand, own =>
    all_renderUnary inner
      (all_render inner operand fun n hn => own n (List.mem_cons_of_mem _ hn))
  | .conditional c a b, own => by
    have below {n : Expr} (hn : n ∈ c.nodes ++ a.nodes ++ b.nodes) : ∀ t ∈ n.ownTokens ctx, P t :=
      own n (List.mem_cons_of_mem _ hn)
    have condition := all_render inner c fun n hn =>
      below (List.mem_append_left _ (List.mem_append_left _ hn))
    have whenTrue := all_render inner a fun n hn =>
      below (List.mem_append_left _ (List.mem_append_right _ hn))
    have whenFalse := all_render inner b fun n hn => below (List.mem_append_right _ hn)
    refine ⟨forall_caseTokens inner condition.condition whenTrue.value whenFalse.value, ?_⟩
    refine forall_or inner (forall_and inner condition.condition whenTrue.condition) ?_
    exact forall_and inner (forall_not inner condition.condition) whenFalse.condition
  | .tuple elements nesting, own => by
    have items := forall_renderValues inner elements fun n hn =>
      own n (List.mem_cons_of_mem _ hn)
    exact all_ofValue inner (forall_commaSeparated inner items)
  | .aggregate kind argument distinct, own => by
    have inside := all_render inner argument fun n hn => own n (List.mem_cons_of_mem _ hn)
    refine all_ofValue inner (List.forall_mem_cons.2 ⟨own _ List.mem_cons_self _
      List.mem_cons_self, forall_parens inner (List.forall_mem_append.2 ⟨?_, inside.value⟩)⟩)
    split
    · simp only [List.forall_mem_cons]
      exact ⟨inner _ rfl, inner _ rfl, List.forall_mem_nil _⟩
    · exact List.forall_mem_nil _
  | .apply fn arguments, own => by
    have items := forall_renderValues inner arguments fun n hn =>
      own n (List.mem_cons_of_mem _ hn)
    have named := own _ List.mem_cons_self _ List.mem_cons_self
    exact all_ofValue inner (forall_call inner named items)
  | .unsupported reason, own => all_ofValue inner (List.forall_mem_singleton.2 (inner _ rfl))

theorem forall_renderValues (inner : ∀ t : Token, t.isInner → P t) : (es : List Expr) →
    (∀ n ∈ Expr.nodesOfAll es, ∀ t ∈ n.ownTokens ctx, P t) →
    ∀ ts ∈ renderValues ctx es, ∀ t ∈ ts, P t
  | [], _ => List.forall_mem_nil _
  | e :: es, own => by
    have first := all_render inner e fun n hn => own n (List.mem_append_left _ hn)
    have others := forall_renderValues inner es fun n hn =>
      own n (List.mem_append_right _ hn)
    exact List.forall_mem_cons.2 ⟨first.value, others⟩

end

end Emission

namespace QueryModel

open Emission

variable {P : Token → Prop} {m : QueryModel} {dialect : Dialect}

/-- A source that exists has a name. -/
theorem aliasOf_eq (dialect : Dialect) {id : Nat} (h : id < m.sources.length) :
    ∃ name, (Alias.names m.sources.length)[id]? = some name ∧
      (m.emissionContext dialect).aliasOf id = .sourceName name := by
  have bound : id < (Alias.names m.sources.length).length := (Alias.length_names _).symm ▸ h
  refine ⟨_, List.getElem?_eq_getElem bound, ?_⟩
  rw [Context.aliasOf, emissionContext, List.getElem?_eq_getElem bound]
  rfl

/-- A property of all plain tokens, of the names of sources and of what the expressions and sources
of a model have of their own is one of all tokens of the query. -/
theorem forall_tokens (plain : ∀ t : Token, t.isPlain → P t)
    (aliases : ∀ id < m.sources.length, P ((m.emissionContext dialect).aliasOf id))
    (element : ∀ n ∈ m.element.nodes, ∀ t ∈ n.ownTokens (m.emissionContext dialect), P t)
    (exprs : ∀ e ∈ m.exprs, ∀ n ∈ e.nodes, ∀ t ∈ n.ownTokens (m.emissionContext dialect), P t)
    (sources : ∀ source ∈ m.sources, ∀ t ∈ source.ownTokens (m.emissionContext dialect), P t) :
    ∀ t ∈ m.tokens dialect, P t := by
  have words (ws : List Token) (h : ws.all Token.isPlain) : ∀ t ∈ ws, P t :=
    fun t ht => plain t (List.all_eq_true.1 h t ht)
  have inner (t : Token) (h : t.isInner) : P t := plain t (Token.isPlain_of_isInner h)
  have projection : ∀ t ∈ projectionTokens (m.emissionContext dialect) m.projection, P t := by
    cases selected : m.projection with
    | none =>
      rw [QueryModel.element, selected] at element
      exact element _ List.mem_cons_self
    | some e =>
      have own := exprs e (by simp [QueryModel.exprs, selected])
      refine forall_commaSeparated inner (forall_renderValues inner _ fun n hn => ?_)
      obtain ⟨c, hc, hn⟩ := Expr.mem_nodesOfAll.1 hn
      exact own n (Expr.mem_nodes_of_mem_columns hc hn)
  have origins : ∀ t ∈ fromTokens (m.emissionContext dialect) m.sources, P t := by
    refine forall_commaSeparated inner fun ts hts => ?_
    obtain ⟨⟨source, id⟩, hsource, rfl⟩ := List.mem_map.1 hts
    have own := sources source (List.fst_mem_of_mem_zipIdx hsource)
    refine List.forall_mem_append.2 ⟨?_, List.forall_mem_cons.2
      ⟨plain _ rfl, List.forall_mem_singleton.2 (aliases id (List.snd_lt_of_mem_zipIdx hsource))⟩⟩
    cases source with
    | root name => exact own
    | path parent names entity =>
      obtain ⟨start, rest⟩ := List.forall_mem_cons.1 own
      exact List.forall_mem_cons.2 ⟨start, forall_pathTokens inner rest⟩
  unfold tokens
  simp only [List.forall_mem_append]
  refine ⟨⟨⟨⟨⟨⟨words _ rfl, ?_⟩, projection⟩, forall_spaced inner (words _ rfl)⟩, origins⟩, ?_⟩, ?_⟩
  · split
    · exact words _ rfl
    · exact List.forall_mem_nil _
  · split
    · next e kept =>
      have own := exprs e (by simp [QueryModel.exprs, kept])
      refine List.forall_mem_append.2 ⟨forall_spaced inner (words _ rfl), ?_⟩
      exact (all_render inner e own).condition
    · exact List.forall_mem_nil _
  · split
    · exact List.forall_mem_nil _
    · refine List.forall_mem_append.2 ⟨forall_spaced inner (words _ rfl), ?_⟩
      refine forall_commaSeparated inner fun ts hts => ?_
      obtain ⟨key, hkey, rfl⟩ := List.mem_map.1 hts
      have own := exprs key.expr (by
        simp only [QueryModel.exprs, List.mem_append, List.mem_map]
        exact .inr ⟨key, hkey, rfl⟩)
      refine List.forall_mem_append.2 ⟨(all_render inner key.expr own).value, ?_⟩
      exact List.forall_mem_cons.2 ⟨plain _ rfl, List.forall_mem_singleton.2 (plain _ rfl)⟩

/-- The entity types that a query names are those whose instances it ranges over. -/
theorem root_of_entity_mem_tokens {name : String} (h : .entity name ∈ m.tokens dialect) :
    .root name ∈ m.sources := by
  have other {ctx : Context} {e : Expr} : .entity name ∉ e.ownTokens ctx := by
    unfold Expr.ownTokens
    split <;> simp [Context.aliasOf]
  refine forall_tokens (P := fun t => t = .entity name → .root name ∈ m.sources) ?_ ?_ ?_ ?_ ?_ _ h
    rfl
  · rintro _ plain rfl
    cases plain
  · intro id _ same
    cases same
  · rintro n - _ own rfl
    exact absurd own other
  · rintro e - n - _ own rfl
    exact absurd own other
  · rintro source hsource _ own rfl
    cases source with
    | root entity =>
      obtain rfl := Token.entity.inj (List.mem_singleton.1 own)
      exact hsource
    | path parent names entity => simp [Source.ownTokens, Context.aliasOf] at own

end QueryModel
end EntityQuery
