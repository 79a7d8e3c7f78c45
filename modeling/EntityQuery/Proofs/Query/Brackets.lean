import EntityQuery.Proofs.Query.FromClause
import EntityQuery.Proofs.QueryForm.Typing

/-! Brackets in the tokens of a query: parentheses, and CASE with its END. What an expression is
written as closes all brackets that it opens, in the right order, and outside of brackets it has a
comma between any two columns and no other commas. -/
namespace EntityQuery

inductive Bracket where
  | paren
  | case
deriving DecidableEq

/-- The brackets that are open, the innermost one first, and how many commas stood outside of
brackets. -/
structure Depth where
  opened : List Bracket := []
  commas : Nat := 0

namespace Depth

def enter (d : Depth) (b : Bracket) : Depth := { d with opened := b :: d.opened }

/-- Only the innermost bracket can be closed. -/
def leave (d : Depth) (b : Bracket) : Option Depth :=
  match d.opened with
  | top :: rest => if top = b then some { d with opened := rest } else none
  | [] => none

/-- Commas inside of brackets do not count. -/
def count (d : Depth) (commas : Nat) : Depth :=
  if d.opened = [] then { d with commas := d.commas + commas } else d

def step (d : Depth) : Token → Option Depth
  | .leftParen => some (d.enter .paren)
  | .rightParen => d.leave .paren
  | .word .CASE => some (d.enter .case)
  | .word .END => d.leave .case
  | .comma => some (d.count 1)
  | _ => some d

/-- The depth after some tokens, if no bracket is closed that is not open. -/
def after (d : Depth) (ts : List Token) : Option Depth := ts.foldlM step d

end Depth

/-- Tokens that close the brackets they open, with a number of commas outside of them. -/
def Spans (commas : Nat) (ts : List Token) : Prop := ∀ d : Depth, d.after ts = some (d.count commas)

def Balanced (ts : List Token) : Prop := ∃ commas, Spans commas ts

namespace Token

/-- Neither a bracket nor a comma. -/
def isFlat : Token → Bool
  | comma | leftParen | rightParen | word .CASE | word .END => false
  | _ => true

theorem isFlat_of_isReference {t : Token} (h : t.isReference) : t.isFlat := by
  cases t <;> first | rfl | cases h

def isSelect : Token → Bool
  | word .SELECT => true
  | _ => false

end Token

namespace Depth

variable {d : Depth} {ts us : List Token} {n k : Nat}

theorem after_append : d.after (ts ++ us) = d.after ts >>= fun d => d.after us :=
  List.foldlM_append

theorem count_count : (d.count n).count k = d.count (n + k) := by
  unfold count
  split
  · next outside => simp [outside, Nat.add_assoc]
  · rfl

theorem count_zero : d.count 0 = d := by
  unfold count
  split <;> rfl

theorem leave_enter (b : Bracket) : ((d.enter b).count n).leave b = some d := by
  simp [count, enter, leave]

theorem step_flat {t : Token} (h : t.isFlat) : d.step t = some d := by
  unfold step
  split <;> first | rfl | cases h

end Depth

open Depth

section Spans

variable {ts us : List Token} {n k : Nat}

theorem Spans.append (first : Spans n ts) (second : Spans k us) : Spans (n + k) (ts ++ us) := by
  intro d
  rw [after_append, first d, ← count_count]
  exact second (d.count n)

theorem spans_flat (ts : List Token) (h : ts.all Token.isFlat) : Spans 0 ts := by
  intro d
  rw [count_zero]
  induction ts with
  | nil => rfl
  | cons t ts ih =>
    rw [List.all_cons, Bool.and_eq_true] at h
    rw [after, List.foldlM_cons, step_flat h.1]
    exact ih h.2

theorem spans_comma : Spans 1 [.comma] := fun _ => rfl

/-- Commas inside of brackets are not outside. -/
theorem Spans.enclosed (opening closing : Token) (b : Bracket)
    (opens : ∀ d, step d opening = some (d.enter b)) (closes : ∀ d, step d closing = d.leave b)
    (h : Spans n ts) : Spans 0 (opening :: ts ++ [closing]) := by
  intro d
  rw [count_zero, after_append, after, List.foldlM_cons, opens]
  change ((d.enter b).after ts >>= fun d => d.after [closing]) = some d
  rw [h (d.enter b)]
  change ((d.enter b).count n).after [closing] = some d
  rw [after, List.foldlM_cons, closes, leave_enter]
  rfl

theorem Balanced.append (first : Balanced ts) (second : Balanced us) : Balanced (ts ++ us) := by
  obtain ⟨_, first⟩ := first
  obtain ⟨_, second⟩ := second
  exact ⟨_, first.append second⟩

theorem balanced_flatMap {α : Type} {l : List α} {f : α → List Token}
    (h : ∀ x ∈ l, Balanced (f x)) : Balanced (l.flatMap f) := by
  induction l with
  | nil => exact ⟨0, spans_flat _ rfl⟩
  | cons x l ih =>
    obtain ⟨first, rest⟩ := List.forall_mem_cons.1 h
    exact first.append (ih rest)

theorem balanced_flat (ts : List Token) (h : ts.all Token.isFlat) : Balanced ts :=
  ⟨0, spans_flat ts h⟩

end Spans

namespace Emission

variable {ts : List Token}

theorem spans_parens (h : Balanced ts) : Spans 0 (parens ts) := by
  obtain ⟨_, h⟩ := h
  exact h.enclosed .leftParen .rightParen .paren (fun _ => rfl) (fun _ => rfl)

theorem spans_parensIf (wrap : Bool) (h : Balanced ts) (bare : wrap = false → Spans 0 ts) :
    Spans 0 (parensIf wrap ts) := by
  cases wrap with
  | true => exact spans_parens h
  | false => exact bare rfl

theorem balanced_parensIf {wrap : Bool} (h : Balanced ts) : Balanced (parensIf wrap ts) := by
  cases wrap with
  | true => exact ⟨0, spans_parens h⟩
  | false => exact h

/-- What separates a part from the one before it. -/
theorem spans_separator : Spans 1 [.comma, .space] := spans_comma.append (spans_flat _ rfl)

theorem balanced_commaSeparated {parts : List (List Token)} (h : ∀ ts ∈ parts, Balanced ts) :
    Balanced (commaSeparated parts) := by
  cases parts with
  | nil => exact balanced_flat _ rfl
  | cons first rest =>
    obtain ⟨hfirst, hrest⟩ := List.forall_mem_cons.1 h
    exact hfirst.append (balanced_flatMap fun ts hts =>
      Balanced.append ⟨1, spans_separator⟩ (hrest ts hts))

/-- Between parts without commas outside of brackets there are those that separate the parts. -/
theorem spans_commaSeparated {parts : List (List Token)} (h : ∀ ts ∈ parts, Spans 0 ts) :
    Spans (parts.length - 1) (commaSeparated parts) := by
  cases parts with
  | nil => exact spans_flat _ rfl
  | cons first rest =>
    obtain ⟨hfirst, hrest⟩ := List.forall_mem_cons.1 h
    have others : Spans rest.length (rest.flatMap fun ts => .comma :: .space :: ts) := by
      clear h hfirst
      induction rest with
      | nil => exact spans_flat _ rfl
      | cons second more ih =>
        obtain ⟨hsecond, hmore⟩ := List.forall_mem_cons.1 hrest
        rw [List.flatMap_cons, List.length_cons, Nat.add_comm]
        exact (spans_separator.append hsecond).append (ih hmore)
    rw [List.length_cons, Nat.add_sub_cancel, ← Nat.zero_add rest.length]
    exact hfirst.append others

theorem spans_call {name : String} {arguments : List (List Token)}
    (h : ∀ ts ∈ arguments, Balanced ts) : Spans 0 (Rendering.call name arguments) := by
  have called : Spans 0 [.function name] := spans_flat _ rfl
  exact called.append (spans_parens (balanced_commaSeparated h))

/-- Whatever a choice is made of, its commas are between CASE and END. -/
theorem spans_caseTokens {c a b : List Token} (hc : Balanced c) (ha : Balanced a)
    (hb : Balanced b) : Spans 0 (Rendering.caseTokens c a b) := by
  have condition := (balanced_flat [.space, .word .WHEN, .space] rfl).append hc
  have whenTrue := (balanced_flat [.space, .word .THEN, .space] rfl).append ha
  have whenFalse := (balanced_flat [.space, .word .ELSE, .space] rfl).append hb
  have space := balanced_flat [.space] rfl
  obtain ⟨_, inside⟩ := ((condition.append whenTrue).append whenFalse).append space
  have whole := inside.enclosed (.word .CASE) (.word .END) .case (fun _ => rfl) (fun _ => rfl)
  simpa [Rendering.caseTokens] using whole

end Emission

/-- A rendering is balanced in both positions, as a value with a number of commas outside of
brackets. -/
structure Rendering.Spans (commas : Nat) (r : Rendering) : Prop where
  value : EntityQuery.Spans commas r.value
  condition : Balanced r.condition.tokens

namespace Emission

variable {ctx : Context} {ts us : List Token} {n : Nat}

theorem spans_ofValue (h : Spans n ts) : (Rendering.ofValue ts).Spans n where
  value := h
  condition := by
    have compared := Balanced.append ⟨n, h⟩ (balanced_flat (spaced [.symbol .eq]) rfl)
    exact compared.append (balanced_flat _ rfl)

theorem spans_ofCondition {c : Condition (List Token)} (h : Balanced c.tokens) :
    (Rendering.ofCondition c).Spans 0 where
  value := spans_caseTokens h (balanced_flat _ rfl) (balanced_flat _ rfl)
  condition := h

section Conditions

variable {c l r : Condition (List Token)}

theorem balanced_not (h : Balanced c.tokens) : Balanced c.not.tokens :=
  (balanced_flat [.word .NOT, .space] rfl).append ⟨0, spans_parens h⟩

theorem balanced_and (hl : Balanced l.tokens) (hr : Balanced r.tokens) :
    Balanced (l.and r).tokens :=
  ((balanced_parensIf hl).append (balanced_flat _ rfl)).append ⟨0, spans_parens hr⟩

theorem balanced_or (hl : Balanced l.tokens) (hr : Balanced r.tokens) :
    Balanced (l.or r).tokens :=
  (hl.append (balanced_flat _ rfl)).append ⟨0, spans_parens hr⟩

end Conditions

section Operations

variable {op : BinaryOp} {left right : Expr} {l r : Rendering}

theorem isFlat_operatorToken : (spaced [operatorToken op]).all Token.isFlat := by
  cases op <;> rfl

theorem balanced_operation (hl : Balanced ts) (hr : Balanced us) :
    Balanced (operation op left right ts us) :=
  ((balanced_parensIf hl).append (balanced_flat _ isFlat_operatorToken)).append
    (balanced_parensIf hr)

/-- On the right what is no leaf stands in parentheses. -/
theorem spans_operation (hl : Spans 0 ts) (hr : Balanced us)
    (leaf : right.isLeaf → Spans 0 us) : Spans 0 (operation op left right ts us) := by
  have left := spans_parensIf (bindsLooser op left) ⟨0, hl⟩ fun _ => hl
  have right := spans_parensIf (!right.isLeaf) hr fun bare => leaf (by simpa using bare)
  exact (left.append (spans_flat _ isFlat_operatorToken)).append right

theorem spans_renderBinary (hl : l.Spans 0) (hr : r.Spans n) (leaf : right.isLeaf → n = 0) :
    (renderBinary ctx op left right l r).Spans 0 := by
  have leaf (h : right.isLeaf) : Spans 0 r.value := leaf h ▸ hr.value
  have operands : ∀ ts ∈ [l.value, r.value], Balanced ts := by
    simp only [List.forall_mem_cons]
    exact ⟨⟨0, hl.value⟩, ⟨n, hr.value⟩, List.forall_mem_nil _⟩
  cases op with
  | and => exact spans_ofCondition (balanced_and hl.condition hr.condition)
  | or => exact spans_ofCondition (balanced_or hl.condition hr.condition)
  | mod => exact spans_ofValue (spans_call operands)
  | concat =>
    unfold renderBinary
    dsimp only
    split
    · exact spans_ofValue (spans_operation hl.value ⟨n, hr.value⟩ leaf)
    · exact spans_ofValue (spans_call operands)
  | eq | ne | lt | gt | le | ge =>
    exact spans_ofCondition (balanced_operation ⟨0, hl.value⟩ ⟨n, hr.value⟩)
  | add | sub | mul | div =>
    exact spans_ofValue (spans_operation hl.value ⟨n, hr.value⟩ leaf)

theorem spans_renderUnary {op : UnaryOp} {operand : Expr} {x : Rendering}
    (h : x.Spans n) (single : op = .neg → n = 0) : (renderUnary op operand x).Spans 0 := by
  have tested {wrap : Bool} {w : Word} (test : (Token.word w).isFlat) :
      Balanced (parensIf wrap x.value ++ [.space, .word w]) :=
    (balanced_parensIf ⟨n, h.value⟩).append (balanced_flat _ (by simpa using ⟨rfl, test⟩))
  cases op with
  | not => exact spans_ofCondition (balanced_not h.condition)
  | neg =>
    obtain rfl := single rfl
    have negated := spans_parensIf (wrapAfterMinus operand) ⟨0, h.value⟩ fun _ => h.value
    exact spans_ofValue ((spans_flat [.symbol .minus] rfl).append negated)
  | isNull => exact spans_ofCondition (tested rfl)
  | isNotNull => exact spans_ofCondition (tested rfl)

theorem spans_ofLiteral (l : Literal) : (Rendering.ofLiteral l).Spans 0 := by
  cases l with
  | bool b => exact ⟨spans_flat _ rfl, balanced_flat _ rfl⟩
  | _ => exact spans_ofValue (spans_flat _ rfl)

theorem isFlat_pathTokens (path : List String) : (pathTokens path).all Token.isFlat := by
  rw [pathTokens, List.all_flatMap]
  exact List.all_eq_true.2 fun _ _ => rfl

end Operations

theorem length_columns {e : Expr} (single : e.isTuple = false) : e.columns.length - 1 = 0 := by
  rw [Expr.columns_eq single]
  rfl

/-- Outside of brackets a formed expression has the commas between its columns and no others. -/
theorem spans_render {m : Metamodel} {sources : List String} {e : Expr}
    (h : e.Formed m sources) (ctx : Context) :
    (render ctx e).Spans (e.columns.length - 1) := by
  induction h with
  | constant l => exact spans_ofLiteral l
  | parameter => exact spans_ofValue (spans_flat _ rfl)
  | source => exact spans_ofValue (spans_flat _ rfl)
  | @field base path type formed origin typed long ih =>
    have single : base.isTuple = false := by
      cases base <;> first | rfl | cases origin
    rw [length_columns single] at ih
    exact spans_ofValue (ih.value.append (spans_flat _ (isFlat_pathTokens path)))
  | @binary op l r left right resolved admitted hl hr =>
    have single := Expr.isTuple_of_isPlural (QueryForm.single_of_admits admitted).1
    rw [length_columns single] at hl
    refine spans_renderBinary hl hr fun leaf => length_columns ?_
    cases r <;> first | rfl | cases leaf
  | @unary op operand formed admitted h =>
    refine spans_renderUnary h fun negation => length_columns (Expr.isTuple_of_isPlural ?_)
    subst negation
    exact QueryForm.single_of_admitsUnary ((admitted.resolve_left nofun).resolve_left nofun)
  | conditional c a b boolean singleTrue singleFalse hc ha hb =>
    refine ⟨spans_caseTokens hc.condition ⟨_, ha.value⟩ ⟨_, hb.value⟩, ?_⟩
    exact balanced_or (balanced_and hc.condition ha.condition)
      (balanced_and (balanced_not hc.condition) hb.condition)
  | @tuple es parts members flat fits ih =>
    have each : ∀ ts ∈ es.map fun e => (render ctx e).value, Spans 0 ts :=
      List.forall_mem_map.2 fun e he => length_columns (flat e he) ▸ (ih e he).value
    have whole := spans_commaSeparated each
    rw [List.length_map, ← renderValues_eq] at whole
    exact spans_ofValue whole
  | apply arguments accepted ih =>
    refine spans_ofValue (spans_call ?_)
    rw [renderValues_eq]
    exact List.forall_mem_map.2 fun e he => ⟨_, (ih e he).value⟩

theorem balanced_fromTokens {sources : List Source} : Balanced (fromTokens ctx sources) := by
  refine balanced_commaSeparated fun ts hts => balanced_flat _ (List.all_eq_true.2 fun t ht => ?_)
  rcases isReference_or_of_mem_part hts t ht with rfl | reference
  · rfl
  · exact Token.isFlat_of_isReference reference

end Emission

/-- What the expressions of a query are: formed, or one aggregate of a formed one. -/
def Expr.Queried (m : Metamodel) (sources : List String) (e : Expr) : Prop :=
  e.Formed m sources ∨
    ∃ kind argument distinct, e = .aggregate kind argument distinct ∧ argument.Formed m sources

namespace Expr.Queried

open Emission

variable {m : Metamodel} {sources : List String} {e c : Expr}

theorem of_mem_columns (h : e.Queried m sources) (hc : c ∈ e.columns) :
    c.Queried m sources ∧ c.isTuple = false := by
  rcases h with formed | ⟨kind, argument, distinct, rfl, formed⟩
  · exact (formed.of_mem_columns hc).imp_left .inl
  · obtain rfl := List.mem_singleton.1 hc
    exact ⟨.inr ⟨kind, argument, distinct, rfl, formed⟩, rfl⟩

theorem width_nesting (h : e.Queried m sources) : e.nesting.width = e.columns.length := by
  rcases h with formed | ⟨kind, argument, distinct, rfl, -⟩
  · exact formed.width_nesting
  · rfl

theorem spans (h : e.Queried m sources) (ctx : Context) :
    (render ctx e).Spans (e.columns.length - 1) := by
  rcases h with formed | ⟨kind, argument, distinct, rfl, formed⟩
  · exact spans_render formed ctx
  · have named : Spans 0 [.function kind.name] := spans_flat _ rfl
    have marked : Balanced (if distinct then [.word .DISTINCT, .space] else []) := by
      cases distinct <;> exact balanced_flat _ rfl
    have inside := marked.append ⟨_, (spans_render formed ctx).value⟩
    exact spans_ofValue (named.append (spans_parens inside))

end Expr.Queried

/-- What is written between SELECT and FROM. -/
def selectList (ts : List Token) : List Token :=
  ((ts.dropWhile fun t => !t.isSelect).drop 1).takeWhile fun t => !t.isFrom

theorem selectList_append (list : List Token) {origins predicate ordering : List Token}
    (within : ∀ t ∈ list, t.startsClause = false) :
    selectList (.word .SELECT :: list ++ Emission.spaced [.word .FROM] ++ origins ++ predicate ++
      ordering) = list ++ [.space] := by
  have early : ∀ t ∈ list, !t.isFrom := fun t ht => by
    rw [Token.isFrom_eq_false (within t ht)]
    rfl
  simp only [List.append_assoc]
  change List.takeWhile _ (list ++ _) = _
  rw [List.takeWhile_append_of_pos early]
  rfl

namespace QueryModel

open Emission

variable {metamodel : Metamodel} {m : QueryModel} {dialect : Dialect}

/-- Whether duplicates are dropped stands before the columns. -/
def listTokens (m : QueryModel) (ctx : Context) : List Token :=
  .space :: (if m.distinct then [.word .DISTINCT, .space] else []) ++
    projectionTokens ctx m.projection

theorem selectList_tokens :
    selectList (m.tokens dialect) = m.listTokens (m.emissionContext dialect) ++ [.space] := by
  unfold tokens
  refine selectList_append (m.listTokens (m.emissionContext dialect)) ?_
  unfold listTokens
  simp only [List.forall_mem_append, List.forall_mem_cons]
  refine ⟨⟨rfl, ?_⟩, startsClause_projectionTokens⟩
  split
  · exact List.forall_mem_cons.2 ⟨rfl, List.forall_mem_singleton.2 rfl⟩
  · exact List.forall_mem_nil _

section Queried

variable (queried : ∀ e ∈ m.exprs, e.Queried metamodel (m.sources.map Source.entity))
include queried

/-- The columns of the projection are separated by commas. -/
theorem spans_projectionTokens (ctx : Context) :
    Spans (m.rowNesting.width - 1) (projectionTokens ctx m.projection) := by
  unfold rowNesting
  cases selected : m.projection with
  | none => exact spans_flat _ rfl
  | some e =>
    have e_queried := queried e (mem_exprs.2 (.inr (.inl selected)))
    have each : ∀ ts ∈ e.columns.map fun c => (render ctx c).value, Spans 0 ts := by
      refine List.forall_mem_map.2 fun c hc => ?_
      obtain ⟨c_queried, single⟩ := e_queried.of_mem_columns hc
      exact length_columns single ▸ (c_queried.spans ctx).value
    have whole := spans_commaSeparated each
    rw [List.length_map, ← renderValues_eq, ← e_queried.width_nesting] at whole
    exact whole

theorem spans_listTokens (ctx : Context) : Spans (m.rowNesting.width - 1) (m.listTokens ctx) := by
  have marked : Spans 0 (.space :: if m.distinct then [.word .DISTINCT, .space] else []) := by
    cases m.distinct <;> exact spans_flat _ rfl
  have listed := marked.append (spans_projectionTokens queried ctx)
  rwa [Nat.zero_add] at listed

theorem spans_selectList (dialect : Dialect) :
    Spans (m.rowNesting.width - 1) (selectList (m.tokens dialect)) := by
  rw [selectList_tokens]
  exact (spans_listTokens queried _).append (spans_flat _ rfl)

theorem balanced_tokens (dialect : Dialect) : Balanced (m.tokens dialect) := by
  have list : Balanced (.word .SELECT :: m.listTokens (m.emissionContext dialect)) :=
    (balanced_flat [.word .SELECT] rfl).append ⟨_, spans_listTokens queried _⟩
  refine (((list.append (balanced_flat (spaced [.word .FROM]) rfl)).append ?_).append
    ?_).append ?_
  · exact balanced_fromTokens
  · split
    · next e kept =>
      have condition := (queried e (mem_exprs.2 (.inl kept))).spans (m.emissionContext dialect)
      exact Balanced.append (balanced_flat _ rfl) condition.condition
    · exact balanced_flat _ rfl
  · split
    · exact balanced_flat _ rfl
    · next keys sorted =>
      refine Balanced.append (balanced_flat _ rfl) (balanced_commaSeparated ?_)
      refine List.forall_mem_map.2 fun key hkey => ?_
      have key_queried := queried key.expr (mem_exprs.2 (.inr (.inr ⟨key, hkey, rfl⟩)))
      refine Balanced.append ⟨_, (key_queried.spans _).value⟩ (balanced_flat _ ?_)
      cases key.direction <;> rfl

end Queried

end QueryModel
end EntityQuery
