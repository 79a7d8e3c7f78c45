import EntityQuery.Proofs.Query.Tokens
import EntityQuery.Proofs.Query.Trees
import EntityQuery.Proofs.QueryForm.Formed

/-! The parentheses of query text are right: the tokens of an expression have the tree that is
meant, and by the grammar no other. -/
namespace EntityQuery

open Emission QueryTree Mark

@[simp] theorem Token.marksOfAll_nil : marksOfAll [] = [] := rfl

@[simp] theorem Token.marksOfAll_cons (t : Token) (ts : List Token) :
    marksOfAll (t :: ts) = t.marks ++ marksOfAll ts := rfl

@[simp] theorem Token.marksOfAll_append (ts us : List Token) :
    marksOfAll (ts ++ us) = marksOfAll ts ++ marksOfAll us := by
  simp [marksOfAll]

@[simp] theorem Emission.marksOfAll_parens (ts : List Token) :
    Token.marksOfAll (parens ts) =
      token .leftParen :: Token.marksOfAll ts ++ [token .rightParen] := by
  simp [parens, Token.marks]

@[simp] theorem Emission.marksOfAll_spaced (ts : List Token) :
    Token.marksOfAll (spaced ts) = Token.marksOfAll ts := by
  simp [spaced, Token.marks]

theorem Emission.marksOfAll_commaSeparated (tss : List (List Token)) :
    Token.marksOfAll (Emission.commaSeparated tss) =
      QueryTree.commaSeparated (tss.map Token.marksOfAll) := by
  cases tss with
  | nil => rfl
  | cons ts tss =>
    simp only [Emission.commaSeparated, QueryTree.commaSeparated, Token.marksOfAll_append,
      List.map_cons, List.append_cancel_left_eq]
    induction tss with
    | nil => rfl
    | cons us tss ih => simp [ih, Token.marks]

namespace QueryTree

/-- How tightly the text of a value binds. -/
def valueStrength (d : Dialect) : Expr → Nat
  | .binary op _ _ =>
    if op.isComparison || op.isLogical || op = .mod || (op = .concat && !d.hasConcatOperator) then
      closedStrength
    else op.precedence
  | .unary .neg _ => signStrength
  | .constant (.int n) => if n < 0 then signStrength else closedStrength
  | .constant (.float x) => if Number.isNegative x then signStrength else closedStrength
  | _ => closedStrength

theorem precedence_lt_sign (op : BinaryOp) : op.precedence < signStrength := by
  cases op <;> decide

/-- A left operand without parentheses binds tightly enough. -/
theorem precedence_le_of_not_bindsLooser {d : Dialect} {op : BinaryOp} {l : Expr}
    (h : bindsLooser op l = false) : op.precedence ≤ valueStrength d l := by
  have := precedence_lt_sign op
  unfold valueStrength
  split
  · next inner _ _ =>
    split
    · exact Nat.le_of_lt (Nat.lt_succ_of_lt this)
    · simpa [bindsLooser] using h
  · omega
  · split <;> simp only [closedStrength, signStrength] at * <;> omega
  · split <;> simp only [closedStrength, signStrength] at * <;> omega
  · simp only [closedStrength, signStrength] at *; omega

variable {k : Nat} {ts : List Token} {a : QueryTree}

/-- Parentheses make text of any strength. -/
theorem derives_parens (h : Derives 1 (Token.marksOfAll ts) a) :
    Derives closedStrength (Token.marksOfAll (parens ts)) a := by
  rw [marksOfAll_parens]
  exact .group h

theorem derives_parensIf {j : Nat} {wrap : Bool} (h : Derives k (Token.marksOfAll ts) a)
    (some : 1 ≤ k) (closed : j ≤ closedStrength) (tight : wrap = false → j ≤ k) :
    Derives j (Token.marksOfAll (parensIf wrap ts)) a := by
  cases wrap with
  | false => exact h.mono (tight rfl)
  | true => exact (derives_parens (h.mono some)).mono closed

theorem valueStrength_constant (d : Dialect) (l : Literal) :
    signStrength ≤ valueStrength d (.constant l) := by
  cases l <;> simp only [valueStrength] <;> try split
  all_goals simp [signStrength, closedStrength]

/-- The text of a value can stand beside a test. -/
theorem testStrength_le_valueStrength (d : Dialect) (e : Expr) :
    testStrength ≤ valueStrength d e := by
  have closed : testStrength ≤ closedStrength := by decide
  have sign : testStrength ≤ signStrength := by decide
  cases e with
  | constant l => exact Nat.le_trans sign (valueStrength_constant d l)
  | binary op l r =>
    simp only [valueStrength]
    split
    · exact closed
    · cases op <;> simp_all [BinaryOp.isComparison, BinaryOp.isLogical] <;> decide
  | unary op e => cases op <;> first | exact closed | exact sign
  | _ => exact closed

theorem one_le_valueStrength (d : Dialect) (e : Expr) : 1 ≤ valueStrength d e :=
  Nat.le_trans (by decide) (testStrength_le_valueStrength d e)

/-- A right operand without parentheses binds tightly enough. -/
theorem precedence_lt_of_isLeaf {d : Dialect} {op : BinaryOp} {r : Expr} (h : r.isLeaf) :
    op.precedence + 1 ≤ valueStrength d r := by
  have := precedence_lt_sign op
  cases r with
  | constant l => exact Nat.le_trans this (valueStrength_constant d l)
  | parameter => exact Nat.le_of_lt (Nat.succ_lt_succ this)
  | _ => cases h

/-- The mark of an operator that is no function. -/
theorem operator?_operatorToken {op : BinaryOp} (infixed : op ≠ .mod) :
    ∃ x, (operatorToken op).marks = [x] ∧ x.operator? = some op := by
  cases op <;> first | exact ⟨_, rfl, rfl⟩ | exact absurd rfl infixed

/-- Operands keep together in an operation. -/
theorem derives_operation {d : Dialect} {op : BinaryOp} {l r : Expr} {ls rs : List Token}
    {a b : QueryTree} (infixed : op ≠ .mod)
    (hl : Derives (valueStrength d l) (Token.marksOfAll ls) a)
    (hr : Derives (valueStrength d r) (Token.marksOfAll rs) b) :
    Derives op.precedence (Token.marksOfAll (operation op l r ls rs)) (.binary op a b) := by
  obtain ⟨x, hx, sign⟩ := operator?_operatorToken infixed
  have bound := precedence_lt_sign op
  have left : Derives op.precedence (Token.marksOfAll (parensIf (bindsLooser op l) ls)) a :=
    derives_parensIf hl (one_le_valueStrength d l) (Nat.le_of_lt (Nat.lt_succ_of_lt bound))
      precedence_le_of_not_bindsLooser
  have right : Derives (op.precedence + 1) (Token.marksOfAll (parensIf (!r.isLeaf) rs)) b :=
    derives_parensIf hr (one_le_valueStrength d r) (Nat.le_of_lt (Nat.succ_lt_succ bound))
      fun leaf => precedence_lt_of_isLeaf (by simpa using leaf)
  simpa [operation, hx] using Derives.binary sign left right

end QueryTree

namespace Condition

/-- The atoms of a condition have trees, and the condition has the one built from them. -/
def Means : Condition (List Token) → QueryTree → Prop
  | atom ts, a => Derives testStrength (Token.marksOfAll ts) a
  | not c, a => ∃ b, c.Means b ∧ a = .not b
  | and left right, a => ∃ b c, left.Means b ∧ right.Means c ∧ a = .binary .and b c
  | or left right, a => ∃ b c, left.Means b ∧ right.Means c ∧ a = .binary .or b c

def strength {α : Type} : Condition α → Nat
  | atom _ => testStrength
  | not _ => notStrength
  | and _ _ => 2
  | or _ _ => 1

theorem one_le_strength {α : Type} (c : Condition α) : 1 ≤ c.strength := by
  cases c <;> simp [strength, testStrength, notStrength]

def isOr {α : Type} : Condition α → Bool
  | or _ _ => true
  | _ => false

theorem tokens_and (left right : Condition (List Token)) :
    (and left right).tokens = parensIf left.isOr left.tokens ++ spaced [.word .AND] ++
      parens right.tokens := by
  cases left <;> rfl

/-- The parentheses of a condition keep its parts together. -/
theorem Means.derives {c : Condition (List Token)} {a : QueryTree} (h : c.Means a) :
    Derives c.strength (Token.marksOfAll c.tokens) a := by
  induction c generalizing a with
  | atom ts => exact h
  | not c ih =>
    obtain ⟨b, hb, rfl⟩ := h
    have operand := derives_parens ((ih hb).mono c.one_le_strength)
    simpa [tokens, Token.marks, strength] using
      Derives.not (operand.mono (by decide : notStrength ≤ _))
  | and left right ihl ihr =>
    obtain ⟨b, c, hb, hc, rfl⟩ := h
    have l : Derives 2 (Token.marksOfAll (parensIf left.isOr left.tokens)) b := by
      refine derives_parensIf (ihl hb) left.one_le_strength (by decide) fun loose => ?_
      cases left with
      | or => cases loose
      | _ => simp [strength, testStrength, notStrength]
    have r := derives_parens ((ihr hc).mono right.one_le_strength)
    have sign : (token (.word .AND)).operator? = some .and := rfl
    rw [tokens_and]
    simpa [Token.marks, strength, BinaryOp.precedence] using
      Derives.binary sign l (r.mono (by decide))
  | or left right ihl ihr =>
    obtain ⟨b, c, hb, hc, rfl⟩ := h
    have r := derives_parens ((ihr hc).mono right.one_le_strength)
    have sign : (token (.word .OR)).operator? = some .or := rfl
    have l := (ihl hb).mono left.one_le_strength
    simpa [tokens, Token.marks, strength, BinaryOp.precedence] using
      Derives.binary sign l (r.mono (by decide))

end Condition

namespace QueryTree

/-- The tokens of both readings of an expression have their trees. -/
structure Rendered (k : Nat) (rendering : Rendering) (readings : Readings) : Prop where
  value : Derives k (Token.marksOfAll rendering.value) readings.value
  condition : rendering.condition.Means readings.condition

theorem derives_cases {cs ts fs : List Token} {c a b : QueryTree}
    (hc : Derives 1 (Token.marksOfAll cs) c) (ha : Derives 1 (Token.marksOfAll ts) a)
    (hb : Derives 1 (Token.marksOfAll fs) b) :
    Derives closedStrength (Token.marksOfAll (Rendering.caseTokens cs ts fs)) (.cases c a b) := by
  simpa [Rendering.caseTokens, Token.marks] using Derives.cases hc ha hb

theorem derives_closed {t : Token} {x : Mark} {a : QueryTree} (ht : t.marks = [x])
    (h : OfMark x a) : Derives closedStrength (Token.marksOfAll [t]) a := by
  simpa [ht] using Derives.closed h

theorem rendered_ofCondition {c : Condition (List Token)} {a : QueryTree} (h : c.Means a) :
    Rendered closedStrength (.ofCondition c) (.ofCondition a) where
  value := by
    have truth (b : Bool) : Derives closedStrength (Token.marksOfAll [.bool b]) (.bool b) :=
      derives_closed rfl (.bool b)
    exact derives_cases (h.derives.mono c.one_le_strength) ((truth true).mono (by decide))
      ((truth false).mono (by decide))
  condition := h

theorem rendered_ofValue {k : Nat} {ts : List Token} {a : QueryTree}
    (h : Derives k (Token.marksOfAll ts) a) (tight : testStrength ≤ k) :
    Rendered k (.ofValue ts) (.ofValue a) where
  value := h
  condition := by
    have sign : (token (.symbol .eq)).operator? = some .eq := rfl
    have truth : Derives closedStrength (Token.marksOfAll [.bool true]) _ :=
      derives_closed rfl (.bool true)
    have test : Derives testStrength _ _ :=
      Derives.binary sign (h.mono tight) (truth.mono (by decide))
    simpa [Rendering.ofValue, Readings.ofValue, Condition.Means, Token.marks] using test

theorem rendered_closed {ts : List Token} {a : QueryTree}
    (h : Derives closedStrength (Token.marksOfAll ts) a) :
    Rendered closedStrength (.ofValue ts) (.ofValue a) :=
  rendered_ofValue h (by decide)

theorem derives_int (d : Dialect) (n : Int64) :
    Derives (valueStrength d (.constant (.int n))) (Token.marksOfAll [.int n]) (ofInt n) := by
  have magnitude := Derives.closed (.whole n.toInt.natAbs)
  simp only [valueStrength, ofInt, Token.marksOfAll_cons, Token.marks, Token.marksOfAll_nil,
    List.append_nil]
  split
  · exact .minus magnitude.looser
  · exact magnitude

theorem derives_float (d : Dialect) (x : Float) :
    Derives (valueStrength d (.constant (.float x))) (Token.marksOfAll [.float x]) (ofFloat x) := by
  have magnitude := Derives.closed (.fraction x.abs)
  simp only [valueStrength, ofFloat, Token.marksOfAll_cons, Token.marks, Token.marksOfAll_nil,
    List.append_nil]
  split
  · exact .minus magnitude.looser
  · exact magnitude

theorem rendered_ofLiteral (d : Dialect) (l : Literal) :
    Rendered (valueStrength d (.constant l)) (.ofLiteral l) (ofLiteral l) := by
  cases l with
  | int n => exact rendered_ofValue (derives_int d n) (testStrength_le_valueStrength _ _)
  | float x => exact rendered_ofValue (derives_float d x) (testStrength_le_valueStrength _ _)
  | string s => exact rendered_closed (derives_closed rfl (.string s))
  | bool b =>
    have sign : (token (.symbol .eq)).operator? = some .eq := rfl
    have one := Derives.closed (.whole 1)
    have truth := Derives.closed (.whole (if b then 1 else 0))
    refine ⟨derives_closed rfl (.bool b), ?_⟩
    have h := Derives.binary sign (one.mono (by decide)) (truth.mono (by decide))
    cases b <;> exact h
  | null => exact rendered_closed (derives_closed rfl .null)

/-- A branch is a `CASE` as a value and its expansion as a condition. -/
theorem rendered_ofBranch {i j k : Nat} {c a b : Rendering} {c' a' b' : Readings}
    (hc : Rendered i c c') (ha : Rendered j a a') (hb : Rendered k b b') (hj : 1 ≤ j) (hk : 1 ≤ k) :
    Rendered closedStrength (.ofBranch c a b) (.ofBranch c' a' b') where
  value := derives_cases (hc.condition.derives.mono c.condition.one_le_strength)
    (ha.value.mono hj) (hb.value.mono hk)
  condition := ⟨_, _, ⟨_, _, hc.condition, ha.condition, rfl⟩,
    ⟨_, _, ⟨_, hc.condition, rfl⟩, hb.condition, rfl⟩, rfl⟩

theorem derives_call (name : String) {parts : List (List Token × QueryTree)}
    (h : ∀ p ∈ parts, Derives 1 (Token.marksOfAll p.1) p.2) :
    Derives closedStrength (Token.marksOfAll (Rendering.call name (parts.map Prod.fst)))
      (.call name (parts.map Prod.snd)) := by
  have arguments : ∀ p ∈ parts.map fun p => (Token.marksOfAll p.1, p.2), Derives 1 p.1 p.2 := by
    intro p hp
    obtain ⟨q, hq, rfl⟩ := List.mem_map.1 hp
    exact h q hq
  simpa [Rendering.call, Token.marks, marksOfAll_commaSeparated, Function.comp_def] using
    Derives.call name arguments

variable {ctx : Context} {l r e : Expr} {lr rr : Rendering} {lt rt : Readings}

theorem derives_pair (name : String) (hl : Rendered (valueStrength ctx.dialect l) lr lt)
    (hr : Rendered (valueStrength ctx.dialect r) rr rt) :
    Derives closedStrength (Token.marksOfAll (Rendering.call name [lr.value, rr.value]))
      (.call name [lt.value, rt.value]) := by
  have operands : ∀ p ∈ [(lr.value, lt.value), (rr.value, rt.value)],
      Derives 1 (Token.marksOfAll p.1) p.2 := by
    simp only [List.forall_mem_cons]
    exact ⟨hl.value.mono (one_le_valueStrength _ _), hr.value.mono (one_le_valueStrength _ _),
      by simp⟩
  exact derives_call name operands

theorem rendered_binary {op : BinaryOp} (hl : Rendered (valueStrength ctx.dialect l) lr lt)
    (hr : Rendered (valueStrength ctx.dialect r) rr rt) :
    Rendered (valueStrength ctx.dialect (.binary op l r)) (renderBinary ctx op l r lr rr)
      (ofBinary ctx.dialect op lt rt) := by
  have infixed (h : op ≠ .mod) := derives_operation h hl.value hr.value
  have value {ts : List Token} {a : QueryTree}
      (h : Derives (valueStrength ctx.dialect (.binary op l r)) (Token.marksOfAll ts) a) :=
    rendered_ofValue h (testStrength_le_valueStrength _ _)
  cases op with
  | and => exact rendered_ofCondition ⟨_, _, hl.condition, hr.condition, rfl⟩
  | or => exact rendered_ofCondition ⟨_, _, hl.condition, hr.condition, rfl⟩
  | mod => exact rendered_closed (derives_pair "MOD" hl hr)
  | concat =>
    by_cases operator : ctx.dialect.hasConcatOperator
    · have strength :
          valueStrength ctx.dialect (.binary .concat l r) = BinaryOp.concat.precedence :=
        if_neg (by simp [operator, BinaryOp.isComparison, BinaryOp.isLogical])
      have both := value (strength ▸ infixed (by decide))
      simpa [renderBinary, ofBinary, ofOperation, operator, BinaryOp.isComparison,
        BinaryOp.isLogical] using both
    · have strength : valueStrength ctx.dialect (.binary .concat l r) = closedStrength :=
        if_pos (by simp [operator])
      have both := value (strength ▸ derives_pair "CONCAT" hl hr)
      simpa [renderBinary, ofBinary, ofOperation, operator, BinaryOp.isComparison,
        BinaryOp.isLogical] using both
  | add => exact value (infixed (by decide))
  | sub => exact value (infixed (by decide))
  | mul => exact value (infixed (by decide))
  | div => exact value (infixed (by decide))
  | _ => exact rendered_ofCondition (infixed (by decide))

theorem valueStrength_of_wrapAfterMinus (d : Dialect) (h : wrapAfterMinus e = false) :
    valueStrength d e = closedStrength := by
  cases e with
  | constant l =>
    cases l with
    | int n => exact if_neg (by simpa [wrapAfterMinus] using h)
    | float x => exact if_neg (by simpa [wrapAfterMinus] using h)
    | _ => rfl
  | binary => cases h
  | unary => cases h
  | _ => rfl

theorem rendered_unary {op : UnaryOp} (he : Rendered (valueStrength ctx.dialect e) lr lt) :
    Rendered (valueStrength ctx.dialect (.unary op e)) (renderUnary op e lr) (ofUnary op lt) := by
  have some := one_le_valueStrength ctx.dialect e
  cases op with
  | not => exact rendered_ofCondition ⟨_, he.condition, rfl⟩
  | neg =>
    have operand :
        Derives signStrength (Token.marksOfAll (parensIf (wrapAfterMinus e) lr.value)) _ :=
      derives_parensIf he.value some (by decide) fun h => by
        rw [valueStrength_of_wrapAfterMinus _ h]
        decide
    exact rendered_ofValue (Derives.minus operand) (testStrength_le_valueStrength _ (.unary .neg e))
  | isNull =>
    have operand : Derives testStrength (Token.marksOfAll (parensIf (isBinary e) lr.value)) _ :=
      derives_parensIf he.value some (by decide)
        fun _ => testStrength_le_valueStrength _ _
    refine rendered_ofCondition ?_
    simpa [Condition.Means, Token.marks] using operand.isNull
  | isNotNull =>
    have operand : Derives testStrength (Token.marksOfAll (parensIf (isBinary e) lr.value)) _ :=
      derives_parensIf he.value some (by decide)
        fun _ => testStrength_le_valueStrength _ _
    refine rendered_ofCondition ?_
    simpa [Condition.Means, Token.marks] using operand.isNotNull

theorem derives_path {ts : List Token} {a : QueryTree}
    (h : Derives closedStrength (Token.marksOfAll ts) a) (path : List String) :
    Derives closedStrength (Token.marksOfAll (ts ++ pathTokens path)) (path.foldl .member a) := by
  induction path generalizing ts a with
  | nil => simpa [pathTokens] using h
  | cons name path ih =>
    have first : Derives closedStrength (Token.marksOfAll (ts ++ [.dot, .attributeName name]))
        (.member a name) := by
      simpa [Token.marks] using Derives.member name h
    simpa [pathTokens, Token.marks] using ih first

end QueryTree

theorem QueryTree.values_eq (ctx : Context) (es : List Expr) :
    values ctx es = es.map fun e => (readings ctx e).value := by
  induction es with
  | nil => rfl
  | cons e es ih => rw [values, ih, List.map_cons]

/-- No node is a tuple. -/
def Expr.TupleFree (e : Expr) : Prop := ∀ n ∈ e.nodes, n.isTuple = false

variable {m : Metamodel} {sources : List String} {ctx : Context} {e : Expr}

/-- The tokens of a formed expression have the trees of its value and of its condition. -/
theorem Expr.Formed.rendered (h : e.Formed m sources) (flat : e.TupleFree) (ctx : Context) :
    Rendered (valueStrength ctx.dialect e) (render ctx e) (readings ctx e) := by
  induction h with
  | constant l => exact rendered_ofLiteral _ l
  | @parameter name v _ => exact rendered_closed (derives_closed rfl (.parameter name))
  | source _ => exact rendered_closed (derives_closed rfl (.source _))
  | @field base path type _ origin _ _ ih =>
    have inner := ih fun n hn => flat n (by simp [nodes, hn])
    have closed : valueStrength ctx.dialect base = closedStrength := by
      cases base <;> first | rfl | cases origin
    exact rendered_closed (derives_path (closed ▸ inner.value) path)
  | @binary op l r _ _ _ _ ihl ihr =>
    exact rendered_binary (ihl fun n hn => flat n (by simp [nodes, hn]))
      (ihr fun n hn => flat n (by simp [nodes, hn]))
  | @unary op e _ _ ih => exact rendered_unary (ih fun n hn => flat n (by simp [nodes, hn]))
  | @conditional c a b _ _ _ _ _ _ ihc iha ihb =>
    exact rendered_ofBranch (ihc fun n hn => flat n (by simp [nodes, hn]))
      (iha fun n hn => flat n (by simp [nodes, hn])) (ihb fun n hn => flat n (by simp [nodes, hn]))
      (one_le_valueStrength _ _) (one_le_valueStrength _ _)
  | tuple _ _ _ _ => cases flat _ (mem_nodes_self _)
  | @apply fn es _ _ ih =>
    have parts : ∀ p ∈ es.map fun e => ((render ctx e).value, (readings ctx e).value),
        Derives 1 (Token.marksOfAll p.1) p.2 := by
      intro p hp
      obtain ⟨e, he, rfl⟩ := List.mem_map.1 hp
      have inner := ih e he fun n hn =>
        flat n (by simp [nodes, mem_nodesOfAll]; exact .inr ⟨e, he, hn⟩)
      exact inner.value.mono (one_le_valueStrength _ _)
    have call := derives_call fn.name parts
    rw [List.map_map, List.map_map] at call
    rw [render, readings, renderValues_eq, values_eq]
    exact rendered_closed call

/-- Read by the grammar, the tokens have this tree and no other. -/
def Parses (ts : List Token) (a : QueryTree) : Prop :=
  ∀ b, Derives 1 (Token.marksOfAll ts) b ↔ b = a

def ParsesAll (ts : List Token) (as : List QueryTree) : Prop :=
  ∀ bs, DerivesAll (Token.marksOfAll ts) bs ↔ bs = as

theorem parses_of_derives {k : Nat} {ts : List Token} {a : QueryTree}
    (h : Derives k (Token.marksOfAll ts) a) (some : 1 ≤ k) : Parses ts a :=
  fun _ => ⟨fun hb => hb.unique (h.mono some), fun hb => hb ▸ h.mono some⟩

/-- Parenthesization is sound. With tuples at the root only, the tokens of a translated expression
after `WHERE` or `WHEN` have the tree of its predicate form, those after `ORDER BY` or in a call the
tree of its value, and those after `SELECT` the trees of its columns. -/
theorem Translated.parses (h : Translated m sources e) (flat : ∀ c ∈ e.columns, c.TupleFree)
    (ctx : Context) :
    (e.isTuple = false → Parses (render ctx e).condition.tokens (ofPredicate ctx e.predicateForm) ∧
      Parses (render ctx e).value (readings ctx e).value) ∧
    ParsesAll (projectionTokens ctx (some e)) (e.columns.map fun c => (readings ctx c).value) := by
  have formed := h.formed
  constructor
  · intro single
    have columns : e.columns = [e] := by
      cases e <;> first | rfl | cases single
    have both := formed.rendered (flat e (by simp [columns])) ctx
    refine ⟨?_, parses_of_derives both.value (one_le_valueStrength _ _)⟩
    rw [← condition_eq]
    exact parses_of_derives both.condition.derives (Condition.one_le_strength _)
  · have each : ∀ p ∈ e.columns.map fun c => (Token.marksOfAll (render ctx c).value,
        (readings ctx c).value), Derives 1 p.1 p.2 := by
      intro p hp
      obtain ⟨c, hc, rfl⟩ := List.mem_map.1 hp
      have column := (formed.of_mem_columns hc).1.rendered (flat c hc) ctx
      exact column.value.mono (one_le_valueStrength _ _)
    have derives : DerivesAll (Token.marksOfAll (projectionTokens ctx (some e)))
        (e.columns.map fun c => (readings ctx c).value) := by
      refine ⟨_, each, ?_, by simp⟩
      rw [projectionTokens, marksOfAll_commaSeparated, renderValues_eq, List.map_map, List.map_map]
      rfl
    exact fun bs => ⟨fun hb => hb.unique derives, fun hb => hb ▸ derives⟩

/-- `c.debt - (c.debt - -1) > 0` -/
def debtTest : Expr :=
  .binary .gt (.binary .sub debt (.binary .sub debt (.constant (.int (-1))))) (.constant (.int 0))
where
  debt : Expr := .field (.source 0 "Customer") ["debt"] .numeric

theorem debtTest_translated :
    Translated [("Customer", [("debt", .scalar .numeric)])] ["Customer"] debtTest := by
  have source (b : Expr) (h : Binding.element b ∈ [Binding.element (.source 0 "Customer")]) :
      Translated [("Customer", [("debt", .scalar .numeric)])] ["Customer"] b := by
    cases List.mem_singleton.1 h
    exact .source rfl
  exact .lambda (t := ⟨1, [.param 0, .field 0 "debt", .const (.int (-1)), .binary .sub 1 2,
    .binary .sub 1 3, .const (.int 0), .binary .gt 4 5], 6⟩) source rfl rfl

/-- Parentheses on the right are kept, and none are needed on the left. -/
theorem debtTest_parses :
    Parses
      [.sourceName "A", .dot, .attributeName "debt", .space, .symbol .minus, .space, .leftParen,
        .sourceName "A", .dot, .attributeName "debt", .space, .symbol .minus, .space, .int (-1),
        .rightParen, .space, .symbol .gt, .space, .int 0]
      (.binary .gt
        (.binary .sub (.member (.source "A") "debt")
          (.binary .sub (.member (.source "A") "debt") (.minus (.whole 1))))
        (.whole 0)) := by
  have flat : ∀ c ∈ debtTest.columns, c.TupleFree := by
    simp [debtTest, debtTest.debt, Expr.columns, Expr.TupleFree, Expr.nodes, Expr.isTuple]
  exact ((Translated.parses debtTest_translated flat ⟨.jpql, ["A"]⟩).1 rfl).1

end EntityQuery
