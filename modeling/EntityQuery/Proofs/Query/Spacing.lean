import EntityQuery.Proofs.Query.Spelling
import EntityQuery.Proofs.Query.Tokens

/-! Every two neighbouring tokens of a query are told apart. Blanks, commas and parentheses are told
apart from anything, and they stand between nearly all tokens; what is left are paths and what
follows a minus sign. -/
namespace EntityQuery

variable [Libraries]

namespace Token

/-- Tokens that are told apart from anything before and after them. -/
def isBreak : Token → Bool
  | space | comma | leftParen | rightParen => true
  | _ => false

variable {d : Dialect} {t u : Token}

theorem apart_of_isBreak (h : t.isBreak) : Apart d t u := by
  intro c _
  cases t with
  | space | comma | leftParen | rightParen => rfl
  | _ => cases h

omit [Libraries] in
/-- Nothing goes on with a blank, a comma or a parenthesis. -/
theorem mayPrecede_of_mem {c : Char} (h : c ∈ [' ', ',', '(', ')']) : t.mayPrecede c := by
  simp only [List.mem_cons, List.not_mem_nil, or_false] at h
  rcases h with rfl | rfl | rfl | rfl <;> cases t with
  | symbol s => cases s <;> rfl
  | _ => rfl

theorem apart_break (h : u.isBreak) : Apart d t u := by
  intro c hc
  refine mayPrecede_of_mem ?_
  cases u with
  | space | comma | leftParen | rightParen =>
    simp only [text, String.reduceToList, List.head?_cons, Option.mem_some] at hc
    simp [← hc]
  | _ => cases h

/-- Each token is told apart from the next. -/
abbrev Separated (d : Dialect) (ts : List Token) : Prop := ts.IsChain (Apart d)

variable {ts us : List Token} {b : Token}

theorem separated_break (h : b.isBreak) :
    Separated d (ts ++ b :: us) ↔ Separated d ts ∧ Separated d us := by
  rw [Separated, List.isChain_append, List.isChain_cons]
  constructor
  · exact fun ⟨before, ⟨_, after⟩, _⟩ => ⟨before, after⟩
  · rintro ⟨before, after⟩
    refine ⟨before, ⟨fun _ _ => apart_of_isBreak h, after⟩, ?_⟩
    rintro _ - _ ⟨⟩
    exact apart_break h

theorem separated_cons_break (h : b.isBreak) : Separated d (b :: us) ↔ Separated d us := by
  have split : Separated d ([] ++ b :: us) ↔ Separated d [] ∧ Separated d us := separated_break h
  simpa using split

theorem separated_cons_cons_break (h : b.isBreak) :
    Separated d (t :: b :: us) ↔ Separated d us := by
  have split : Separated d ([t] ++ b :: us) ↔ Separated d [t] ∧ Separated d us := separated_break h
  simpa using split

end Token

namespace Emission

open Token

variable {d : Dialect} {ctx : Context} {ts us : List Token}

theorem separated_parens (h : Separated d ts) : Separated d (parens ts) :=
  (separated_cons_break rfl).2 ((separated_break rfl).2 ⟨h, .nil⟩)

theorem separated_parensIf {wrap : Bool} (h : Separated d ts) : Separated d (parensIf wrap ts) := by
  unfold parensIf
  split
  · exact separated_parens h
  · exact h

/-- A token between blanks keeps apart what is on its sides. -/
theorem separated_spaced {t : Token} (left : Separated d ts) (right : Separated d us) :
    Separated d (ts ++ spaced [t] ++ us) := by
  rw [List.append_assoc]
  exact (separated_break rfl).2 ⟨left, (separated_cons_cons_break rfl).2 right⟩

theorem separated_commaSeparated {parts : List (List Token)}
    (h : ∀ ts ∈ parts, Separated d ts) : Separated d (commaSeparated parts) := by
  cases parts with
  | nil => exact .nil
  | cons first rest =>
    rw [commaSeparated]
    induction rest generalizing first with
    | nil => simpa using h
    | cons second rest ih =>
      obtain ⟨single, others⟩ := List.forall_mem_cons.1 h
      exact (separated_break rfl).2 ⟨single, (separated_cons_break rfl).2 (ih second others)⟩

theorem separated_applied {name : String} (h : Separated d ts) :
    Separated d (function name :: parens ts) :=
  (separated_cons_cons_break rfl).2 ((separated_break rfl).2 ⟨h, .nil⟩)

theorem separated_call {name : String} {arguments : List (List Token)}
    (h : ∀ ts ∈ arguments, Separated d ts) : Separated d (Rendering.call name arguments) :=
  separated_applied (separated_commaSeparated h)

theorem separated_caseTokens {c a b : List Token} (hc : Separated d c) (ha : Separated d a)
    (hb : Separated d b) : Separated d (Rendering.caseTokens c a b) := by
  have start : Separated d ([word .CASE, space, word .WHEN, space] ++ c) :=
    (separated_cons_cons_break rfl).2 ((separated_cons_cons_break rfl).2 hc)
  exact (separated_break rfl).2 ⟨separated_spaced (separated_spaced start ha) hb, .singleton _⟩

theorem separated_not {c : Condition (List Token)} (h : Separated d c.tokens) :
    Separated d c.not.tokens :=
  (separated_cons_cons_break rfl).2 (separated_parens h)

theorem separated_and {l r : Condition (List Token)} (hl : Separated d l.tokens)
    (hr : Separated d r.tokens) : Separated d (l.and r).tokens :=
  separated_spaced (separated_parensIf hl) (separated_parens hr)

theorem separated_or {l r : Condition (List Token)} (hl : Separated d l.tokens)
    (hr : Separated d r.tokens) : Separated d (l.or r).tokens :=
  separated_spaced hl (separated_parens hr)

theorem separated_operation {op : BinaryOp} {left right : Expr} (hl : Separated d ts)
    (hr : Separated d us) : Separated d (operation op left right ts us) :=
  separated_spaced (separated_parensIf hl) (separated_parensIf hr)

/-- A path keeps its names apart from its points and from what it begins with, if a point may
follow that. -/
theorem separated_path {names : List String} (h : Separated d ts)
    (ends : ∀ t ∈ ts.getLast?, t.mayPrecede '.') : Separated d (ts ++ pathTokens names) := by
  induction names generalizing ts with
  | nil => simpa [pathTokens] using h
  | cons name names ih =>
    have point : ∀ t ∈ ts.getLast?, Apart d t dot := by
      intro t ht c hc
      obtain rfl : '.' = c := by simpa [text] using hc
      exact ends t ht
    have named : Separated d [dot, attributeName name] := .cons_cons (fun _ _ => rfl) (.singleton _)
    have longer : Separated d (ts ++ [dot, attributeName name]) :=
      List.isChain_append.2 ⟨h, named, fun t ht u hu => by
        obtain rfl : dot = u := by simpa using hu
        exact point t ht⟩
    have last : ∀ t ∈ (ts ++ [dot, attributeName name]).getLast?, t.mayPrecede '.' := by
      rw [List.getLast?_append]
      rintro _ ⟨⟩
      rfl
    have whole : ts ++ pathTokens (name :: names) =
        ts ++ [dot, attributeName name] ++ pathTokens names := by
      rw [List.append_assoc]
      rfl
    rw [whole]
    exact ih longer last

end Emission

/-- The tokens of a rendering are told apart, in either position. -/
structure Rendering.Separated (d : Dialect) (r : Rendering) : Prop where
  value : Token.Separated d r.value
  condition : Token.Separated d r.condition.tokens

namespace Emission

open Token

variable {d : Dialect} {ctx : Context} {ts us : List Token}

theorem separated_ofValue (h : Separated d ts) : (Rendering.ofValue ts).Separated d where
  value := h
  condition := separated_spaced h (.singleton _)

theorem separated_ofCondition {c : Condition (List Token)} (h : Separated d c.tokens) :
    (Rendering.ofCondition c).Separated d where
  value := separated_caseTokens h (.singleton _) (.singleton _)
  condition := h

theorem separated_ofLiteral (l : Literal) : (Rendering.ofLiteral l).Separated d := by
  cases l with
  | bool b =>
    have one : Separated d [int 1] := .singleton _
    exact ⟨.singleton _, separated_spaced one (.singleton _)⟩
  | _ => exact separated_ofValue (.singleton _)

theorem separated_renderBinary {op : BinaryOp} {left right : Expr} {l r : Rendering}
    (hl : l.Separated d) (hr : r.Separated d) :
    (renderBinary ctx op left right l r).Separated d := by
  have operands : ∀ ts ∈ [l.value, r.value], Separated d ts := by
    simp only [List.forall_mem_cons]
    exact ⟨hl.value, hr.value, List.forall_mem_nil _⟩
  cases op with
  | and => exact separated_ofCondition (separated_and hl.condition hr.condition)
  | or => exact separated_ofCondition (separated_or hl.condition hr.condition)
  | mod => exact separated_ofValue (separated_call operands)
  | concat =>
    unfold renderBinary
    dsimp only
    split
    · exact separated_ofValue (separated_operation hl.value hr.value)
    · exact separated_ofValue (separated_call operands)
  | eq | ne | lt | gt | le | ge =>
    exact separated_ofCondition (separated_operation hl.value hr.value)
  | add | sub | mul | div => exact separated_ofValue (separated_operation hl.value hr.value)

/-! ### Minus signs -/

theorem apart_minus {t : Token} {c : Char} {cs : List Char} (spelled : (t.text d).toList = c :: cs)
    (other : c ≠ '-') : Apart d (symbol .minus) t := by
  intro e he
  rw [spelled] at he
  obtain rfl : c = e := Option.some.inj he
  simpa [mayPrecede] using other

theorem apart_minus_name {t : Token} {name : List Char} (h : Grammar.IsName name)
    (spelled : (t.text d).toList = name) : Apart d (symbol .minus) t := by
  cases name with
  | nil => exact h.1.elim
  | cons c cs =>
    refine apart_minus spelled ?_
    rintro rfl
    cases h.1.1

theorem apart_minus_numeral {t : Token} {numeral : List Char} (h : Number.Numeral numeral)
    (spelled : (t.text d).toList = numeral) : Apart d (symbol .minus) t := by
  obtain ⟨c, cs, rfl, digit⟩ := h.cons
  refine apart_minus spelled ?_
  rintro rfl
  cases digit

end Emission

/-- A node whose names and numbers can be read. A path begins at a source or a choice, and what is
negated is one value. -/
structure Expr.Legible (ctx : Emission.Context) (e : Expr) : Prop where
  own : ∀ t ∈ e.ownTokens ctx, t.Readable
  origin : ∀ base path type, e = .field base path type → base.isOrigin
  negated : ∀ operand, e = .unary .neg operand → operand.isTuple = false

namespace Emission

open Token

variable {d : Dialect} {ctx : Context}

/-- A literal that is not negative begins with no minus sign. -/
theorem apart_minus_literal [Libraries.QueryNumerals] {l : Literal}
    (own : ∀ t ∈ (Expr.constant l).ownTokens ctx, t.Readable)
    (plain : wrapAfterMinus (.constant l) = false) :
    ∀ t ∈ (Rendering.ofLiteral l).value.head?, Apart d (symbol .minus) t := by
  cases l with
  | int n =>
    rintro _ ⟨⟩
    have nonneg : ¬n.toInt < 0 := by
      have given : ¬n < 0 := of_decide_eq_false plain
      rwa [Int64.lt_iff_toInt_lt] at given
    refine apart_minus_numeral (Number.numeral_digits n.toInt.natAbs) ?_
    simp [text, Value.showInt, Number.signed, nonneg]
  | float x =>
    rintro _ ⟨⟩
    have positive : Number.isNegative x = false := plain
    obtain ⟨numeral, isNumeral, written⟩ :=
      Libraries.QueryNumerals.signed x (own _ List.mem_cons_self)
    refine apart_minus_numeral isNumeral ?_
    simp [text, written, positive]
  | string s =>
    rintro _ ⟨⟩
    have quoted : ((Token.string s).text d).toList =
        '\'' :: (Grammar.escaped s.toList ++ ['\'']) := by
      simp [text, Dialect.quote, Grammar.escaped]
    exact apart_minus quoted (by decide)
  | bool b =>
    rintro _ ⟨⟩
    have word : isIdentifier (d.boolText b) := by cases d <;> cases b <;> rfl
    exact apart_minus_name (Grammar.isName_of_isIdentifier word) rfl
  | null =>
    rintro _ ⟨⟩
    exact apart_minus_name (Grammar.isName_of_isIdentifier (s := "NULL") rfl) rfl

theorem apart_minus_case {c a b : List Token} :
    ∀ t ∈ (Rendering.caseTokens c a b).head?, Apart d (symbol .minus) t := by
  rintro _ ⟨⟩
  exact apart_minus_name (Grammar.isName_of_isIdentifier (s := "CASE") rfl) rfl

/-- What is not wrapped after a minus sign begins with none. -/
theorem apart_minus_render [Libraries.QueryNumerals] {e : Expr}
    (legible : ∀ n ∈ e.nodes, n.Legible ctx) (plain : wrapAfterMinus e = false)
    (single : e.isTuple = false) :
    ∀ t ∈ (render ctx e).value.head?, Apart d (symbol .minus) t := by
  have here : e.Legible ctx := legible e e.mem_nodes_self
  have sourceNamed {id : Nat} {entity : String} (h : Expr.source id entity ∈ e.nodes) :
      Apart d (symbol .minus) (ctx.aliasOf id) :=
    apart_minus_name ((legible _ h).own _ List.mem_cons_self) rfl
  cases e with
  | constant l => exact apart_minus_literal here.own plain
  | parameter name v =>
    rintro _ ⟨⟩
    have spelled : ((Token.parameter name).text d).toList = ':' :: name.toList := by
      simp [text, Dialect.parameterText]
    exact apart_minus spelled (by decide)
  | source id entity =>
    rintro _ ⟨⟩
    exact sourceNamed List.mem_cons_self
  | field base path type =>
    have origin := here.origin base path type rfl
    cases base with
    | source id entity =>
      rintro _ ⟨⟩
      exact sourceNamed (List.mem_cons_of_mem _ List.mem_cons_self)
    | conditional c a b =>
      rintro _ ⟨⟩
      exact apart_minus_name (Grammar.isName_of_isIdentifier (s := "CASE") rfl) rfl
    | _ => cases origin
  | binary op left right => cases plain
  | unary op operand => cases plain
  | conditional c a b => exact apart_minus_case
  | tuple elements nesting => cases single
  | aggregate kind argument distinct =>
    rintro _ ⟨⟩
    have named := here.own _ List.mem_cons_self
    exact apart_minus_name named (String.toList_ofList)
  | apply fn arguments =>
    rintro _ ⟨⟩
    have named := here.own _ List.mem_cons_self
    exact apart_minus_name named (String.toList_ofList)
  | unsupported reason =>
    rintro _ ⟨⟩
    exact apart_minus_name (Grammar.isName_of_isIdentifier (s := "NULL") rfl) rfl

theorem separated_renderUnary {op : UnaryOp} {operand : Expr} {x : Rendering}
    (h : x.Separated d)
    (sign : op = .neg → wrapAfterMinus operand = false →
      ∀ t ∈ x.value.head?, Apart d (symbol .minus) t) :
    (renderUnary op operand x).Separated d := by
  have tested {w : Word} :
      Separated d (parensIf (isBinary operand) x.value ++ [space, word w]) :=
    (separated_break rfl).2 ⟨separated_parensIf h.value, .singleton _⟩
  cases op with
  | not => exact separated_ofCondition (separated_not h.condition)
  | neg =>
    refine separated_ofValue ((separated_parensIf h.value).cons fun t ht => ?_)
    unfold parensIf at ht
    split at ht
    · obtain rfl := Option.some.inj ht
      exact apart_break rfl
    · next plain => exact sign rfl (by simpa using plain) t ht
  | isNull => exact separated_ofCondition tested
  | isNotNull => exact separated_ofCondition tested

mutual

/-- The tokens of an expression with legible nodes are told apart. -/
theorem separated_render [Libraries.QueryNumerals] :
    (e : Expr) → (∀ n ∈ e.nodes, n.Legible ctx) → (render ctx e).Separated d
  | .constant l, _ => separated_ofLiteral l
  | .parameter name v, _ => separated_ofValue (.singleton _)
  | .source _ _, _ => separated_ofValue (.singleton _)
  | .field base path type, legible => by
    have start := separated_render base fun n hn => legible n (List.mem_cons_of_mem _ hn)
    have origin := (legible _ List.mem_cons_self).origin base path type rfl
    refine separated_ofValue (separated_path start.value ?_)
    cases base with
    | source id entity =>
      rintro _ ⟨⟩
      rfl
    | conditional c a b =>
      have last (ts : List Token) : (ts ++ [space, word .END]).getLast? = some (word .END) := by
        rw [List.getLast?_append]
        rfl
      intro t ht
      obtain rfl := Option.some.inj ((last _).symm.trans ht)
      rfl
    | _ => cases origin
  | .binary op left right, legible => by
    have inLeft := separated_render left fun n hn =>
      legible n (List.mem_cons_of_mem _ (List.mem_append_left _ hn))
    have inRight := separated_render right fun n hn =>
      legible n (List.mem_cons_of_mem _ (List.mem_append_right _ hn))
    exact separated_renderBinary inLeft inRight
  | .unary op operand, legible => by
    have below : ∀ n ∈ operand.nodes, n.Legible ctx := fun n hn =>
      legible n (List.mem_cons_of_mem _ hn)
    refine separated_renderUnary (separated_render operand below) ?_
    rintro rfl plain
    have single := (legible _ List.mem_cons_self).negated operand rfl
    exact apart_minus_render below plain single
  | .conditional c a b, legible => by
    have below {n : Expr} (hn : n ∈ c.nodes ++ a.nodes ++ b.nodes) : n.Legible ctx :=
      legible n (List.mem_cons_of_mem _ hn)
    have condition := separated_render c fun n hn =>
      below (List.mem_append_left _ (List.mem_append_left _ hn))
    have whenTrue := separated_render a fun n hn =>
      below (List.mem_append_left _ (List.mem_append_right _ hn))
    have whenFalse := separated_render b fun n hn => below (List.mem_append_right _ hn)
    refine ⟨separated_caseTokens condition.condition whenTrue.value whenFalse.value, ?_⟩
    refine separated_or (separated_and condition.condition whenTrue.condition) ?_
    exact separated_and (separated_not condition.condition) whenFalse.condition
  | .tuple elements nesting, legible =>
    separated_ofValue (separated_commaSeparated
      (separated_renderValues elements fun n hn => legible n (List.mem_cons_of_mem _ hn)))
  | .aggregate kind argument distinct, legible => by
    have inside := separated_render argument fun n hn =>
      legible n (List.mem_cons_of_mem _ hn)
    refine separated_ofValue (separated_applied ?_)
    split
    · exact (separated_cons_cons_break rfl).2 inside.value
    · exact inside.value
  | .apply fn arguments, legible =>
    separated_ofValue (separated_call
      (separated_renderValues arguments fun n hn => legible n (List.mem_cons_of_mem _ hn)))
  | .unsupported reason, _ => separated_ofValue (.singleton _)

theorem separated_renderValues [Libraries.QueryNumerals] : (es : List Expr) →
    (∀ n ∈ Expr.nodesOfAll es, n.Legible ctx) → ∀ ts ∈ renderValues ctx es, Separated d ts
  | [], _ => List.forall_mem_nil _
  | e :: es, legible => by
    have first := separated_render e fun n hn => legible n (List.mem_append_left _ hn)
    have others := separated_renderValues es fun n hn =>
      legible n (List.mem_append_right _ hn)
    exact List.forall_mem_cons.2 ⟨first.value, others⟩

end

end Emission

namespace QueryModel

open Token Emission

variable {m : QueryModel} {d : Dialect}

theorem separated_projectionTokens [Libraries.QueryNumerals] {ctx : Context}
    (legible : ∀ e ∈ m.projection, ∀ n ∈ e.nodes, n.Legible ctx) :
    Separated d (projectionTokens ctx m.projection) := by
  cases selected : m.projection with
  | none => exact .singleton _
  | some e =>
    refine separated_commaSeparated (separated_renderValues _ fun n hn => ?_)
    obtain ⟨c, hc, hn⟩ := Expr.mem_nodesOfAll.1 hn
    exact legible e selected n (Expr.mem_nodes_of_mem_columns hc hn)

theorem separated_fromTokens {ctx : Context} (sources : List Source) :
    Separated d (fromTokens ctx sources) := by
  refine separated_commaSeparated fun ts hts => ?_
  obtain ⟨⟨source, id⟩, -, rfl⟩ := List.mem_map.1 hts
  refine (separated_break rfl).2 ⟨?_, .singleton _⟩
  cases source with
  | root name => exact .singleton _
  | path parent names entity =>
    have start : Separated d [ctx.aliasOf parent] := .singleton _
    refine separated_path start ?_
    rintro _ ⟨⟩
    rfl

/-- A clause that may be left out begins with a word between blanks. -/
theorem separated_append {ts clause : List Token} (h : Separated d ts)
    (begins : clause = [] ∨ ∃ w us, clause = spaced [word w] ++ us ∧ Separated d us) :
    Separated d (ts ++ clause) := by
  rcases begins with rfl | ⟨w, us, rfl, rest⟩
  · rwa [List.append_nil]
  · rw [← List.append_assoc]
    exact separated_spaced h rest

/-- All tokens of a query whose expressions are legible are told apart. -/
theorem separated_tokens [Libraries.QueryNumerals]
    (legible : ∀ e ∈ m.exprs, ∀ n ∈ e.nodes, n.Legible (m.emissionContext d)) :
    Separated d (m.tokens d) := by
  have projection : Separated d (projectionTokens (m.emissionContext d) m.projection) :=
    separated_projectionTokens fun e he => legible e (by simp_all [QueryModel.exprs])
  have selected : Separated d ([word .SELECT, space]
      ++ (if m.distinct then [word .DISTINCT, space] else [])
      ++ projectionTokens (m.emissionContext d) m.projection) := by
    rw [List.append_assoc]
    refine (separated_cons_cons_break rfl).2 ?_
    split
    · exact (separated_cons_cons_break rfl).2 projection
    · exact projection
  refine separated_append (separated_append
    (separated_spaced selected (separated_fromTokens m.sources)) ?_) ?_
  · split
    · next e kept =>
      have condition := separated_render (d := d) e (legible e (by simp [QueryModel.exprs, kept]))
      exact .inr ⟨_, _, rfl, condition.condition⟩
    · exact .inl rfl
  · split
    · exact .inl rfl
    · refine .inr ⟨_, _, rfl, separated_commaSeparated fun ts hts => ?_⟩
      obtain ⟨key, hkey, rfl⟩ := List.mem_map.1 hts
      have value := separated_render (d := d) key.expr (legible key.expr (by
        simp only [QueryModel.exprs, List.mem_append, List.mem_map]
        exact .inr ⟨key, hkey, rfl⟩))
      exact (separated_break rfl).2 ⟨value.value, .singleton _⟩

end QueryModel

end EntityQuery
