import EntityQuery.Libraries.Plain
import EntityQuery.Proofs.Dictionary
import EntityQuery.Proofs.Query.Parameters
import EntityQuery.Proofs.Query.Redaction
import EntityQuery.Proofs.Query.Tokens
import EntityQuery.Proofs.Value.Equality

/-! Parameters of a query are bound and written alike. The values are collected along the nodes of
the expressions and the text is made along renderings, where a condition may be written twice and a
value be wrapped; both meet the same names. -/
namespace EntityQuery

/-! ### Parameters that are written -/

/-- The token is written in either position. -/
structure Rendering.Mentions (t : Token) (r : Rendering) : Prop where
  value : t ∈ r.value
  condition : t ∈ r.condition.tokens

namespace Emission

variable {t : Token} {ts us : List Token} {ctx : Context} {l r : Rendering}

theorem mem_parens (h : t ∈ ts) : t ∈ parens ts := by simp [parens, h]

theorem mem_parensIf {wrap : Bool} (h : t ∈ ts) : t ∈ parensIf wrap ts := by
  unfold parensIf
  split
  · exact mem_parens h
  · exact h

theorem mem_commaSeparated {parts : List (List Token)} (h : ts ∈ parts) (ht : t ∈ ts) :
    t ∈ commaSeparated parts := by
  cases parts with
  | nil => cases h
  | cons first rest =>
    rcases List.mem_cons.1 h with rfl | inRest
    · exact List.mem_append_left _ ht
    · have inPart : t ∈ .comma :: .space :: ts := List.mem_cons_of_mem _ (List.mem_cons_of_mem _ ht)
      exact List.mem_append_right _ (List.mem_flatMap.2 ⟨ts, inRest, inPart⟩)

theorem mem_call {name : String} {arguments : List (List Token)} (h : ts ∈ arguments)
    (ht : t ∈ ts) : t ∈ Rendering.call name arguments :=
  List.mem_cons_of_mem _ (mem_parens (mem_commaSeparated h ht))

theorem mem_operation {op : BinaryOp} {left right : Expr} (h : t ∈ ts ∨ t ∈ us) :
    t ∈ operation op left right ts us := by
  simp only [operation, List.mem_append]
  exact h.imp (fun h => .inl (mem_parensIf h)) mem_parensIf

theorem mem_not {c : Condition (List Token)} (h : t ∈ c.tokens) : t ∈ c.not.tokens :=
  List.mem_cons_of_mem _ (List.mem_cons_of_mem _ (mem_parens h))

theorem mem_and {c d : Condition (List Token)} (h : t ∈ c.tokens ∨ t ∈ d.tokens) :
    t ∈ (c.and d).tokens := by
  simp only [Condition.tokens, List.mem_append]
  exact h.imp (fun h => .inl (mem_parensIf h)) mem_parens

theorem mem_or {c d : Condition (List Token)} (h : t ∈ c.tokens ∨ t ∈ d.tokens) :
    t ∈ (c.or d).tokens := by
  simp only [Condition.tokens, List.mem_append]
  exact h.imp .inl mem_parens

theorem mentions_ofValue (h : t ∈ ts) : (Rendering.ofValue ts).Mentions t :=
  ⟨h, List.mem_append_left _ (List.mem_append_left _ h)⟩

theorem mentions_ofCondition {c : Condition (List Token)} (h : t ∈ c.tokens) :
    (Rendering.ofCondition c).Mentions t := by
  refine ⟨?_, h⟩
  simp only [Rendering.ofCondition, Rendering.caseTokens, List.mem_append, h, or_true, true_or]

theorem mentions_renderBinary {op : BinaryOp} {left right : Expr}
    (h : l.Mentions t ∨ r.Mentions t) : (renderBinary ctx op left right l r).Mentions t := by
  have values : t ∈ l.value ∨ t ∈ r.value := h.imp Rendering.Mentions.value Rendering.Mentions.value
  have conditions : t ∈ l.condition.tokens ∨ t ∈ r.condition.tokens :=
    h.imp Rendering.Mentions.condition Rendering.Mentions.condition
  have called (name : String) : t ∈ Rendering.call name [l.value, r.value] := by
    rcases values with inLeft | inRight
    · exact mem_call List.mem_cons_self inLeft
    · exact mem_call (List.mem_cons_of_mem _ List.mem_cons_self) inRight
  cases op with
  | and => exact mentions_ofCondition (mem_and conditions)
  | or => exact mentions_ofCondition (mem_or conditions)
  | mod => exact mentions_ofValue (called "MOD")
  | concat =>
    unfold renderBinary
    dsimp only
    split
    · exact mentions_ofValue (mem_operation values)
    · exact mentions_ofValue (called "CONCAT")
  | eq | ne | lt | gt | le | ge => exact mentions_ofCondition (mem_operation values)
  | add | sub | mul | div => exact mentions_ofValue (mem_operation values)

theorem mentions_renderUnary {op : UnaryOp} {operand : Expr} (h : r.Mentions t) :
    (renderUnary op operand r).Mentions t := by
  cases op with
  | not => exact mentions_ofCondition (mem_not h.condition)
  | neg => exact mentions_ofValue (List.mem_cons_of_mem _ (mem_parensIf h.value))
  | isNull | isNotNull =>
    exact mentions_ofCondition (List.mem_append_left _ (mem_parensIf h.value))

theorem mentions_ofBranch {c a b : Rendering}
    (h : c.Mentions t ∨ a.Mentions t ∨ b.Mentions t) : (Rendering.ofBranch c a b).Mentions t := by
  constructor
  · have written : t ∈ c.condition.tokens ∨ t ∈ a.value ∨ t ∈ b.value :=
      h.imp (·.condition) (Or.imp (·.value) (·.value))
    simp only [Rendering.ofBranch, Rendering.caseTokens, List.mem_append]
    tauto
  · rcases h with inCondition | whenTrue | whenFalse
    · exact mem_or (.inl (mem_and (.inl inCondition.condition)))
    · exact mem_or (.inl (mem_and (.inr whenTrue.condition)))
    · exact mem_or (.inr (mem_and (.inr whenFalse.condition)))

mutual

/-- A parameter is written wherever the expression stands. -/
theorem mentions_render {name : String} {v : Value} : (e : Expr) → .parameter name v ∈ e.nodes →
    (render ctx e).Mentions (.parameter name)
  | .parameter other w, h => by
    cases List.mem_singleton.1 h
    exact mentions_ofValue List.mem_cons_self
  | .field base path type, h => by
    have inBase := mentions_render base ((List.mem_cons.1 h).resolve_left nofun)
    exact mentions_ofValue (List.mem_append_left _ inBase.value)
  | .binary op left right, h => by
    have below := List.mem_append.1 ((List.mem_cons.1 h).resolve_left nofun)
    exact mentions_renderBinary (below.imp (mentions_render left) (mentions_render right))
  | .unary op operand, h =>
    mentions_renderUnary (mentions_render operand ((List.mem_cons.1 h).resolve_left nofun))
  | .conditional c a b, h => by
    have below := (List.mem_cons.1 h).resolve_left nofun
    rw [List.mem_append, List.mem_append, or_assoc] at below
    exact mentions_ofBranch
      (below.imp (mentions_render c) (Or.imp (mentions_render a) (mentions_render b)))
  | .tuple elements nesting, h => by
    obtain ⟨ts, mem, inPart⟩ :=
      mentions_renderValues elements ((List.mem_cons.1 h).resolve_left nofun)
    exact mentions_ofValue (mem_commaSeparated mem inPart)
  | .aggregate kind argument distinct, h => by
    have inside := mentions_render argument ((List.mem_cons.1 h).resolve_left nofun)
    exact mentions_ofValue (List.mem_cons_of_mem _ (mem_parens (List.mem_append_right _ inside.value)))
  | .apply fn arguments, h => by
    obtain ⟨ts, mem, inPart⟩ :=
      mentions_renderValues arguments ((List.mem_cons.1 h).resolve_left nofun)
    exact mentions_ofValue (mem_call mem inPart)
  | .constant _, h | .source _ _, h | .unsupported _, h => nomatch List.mem_singleton.1 h

theorem mentions_renderValues {name : String} {v : Value} : (es : List Expr) →
    .parameter name v ∈ Expr.nodesOfAll es → ∃ ts ∈ renderValues ctx es, .parameter name ∈ ts
  | e :: es, h => by
    rcases List.mem_append.1 h with inFirst | inRest
    · exact ⟨_, List.mem_cons_self, (mentions_render e inFirst).value⟩
    · obtain ⟨ts, mem, inPart⟩ := mentions_renderValues es inRest
      exact ⟨ts, List.mem_cons_of_mem _ mem, inPart⟩

end

end Emission

namespace Expr

theorem mem_allParameters {e : Expr} {p : String × Value} :
    p ∈ e.allParameters ↔ .parameter p.1 p.2 ∈ e.nodes := by
  rw [allParameters, List.mem_filterMap]
  constructor
  · rintro ⟨n, mem, found⟩
    cases n <;> cases found
    exact mem
  · exact fun mem => ⟨_, mem, rfl⟩

end Expr

namespace QueryModel

open Emission

variable {m : QueryModel} {dialect : Dialect} {name : String}

/-- The parameters of all expressions, with repetitions. -/
def allParameters (m : QueryModel) : List (String × Value) := m.exprs.flatMap Expr.allParameters

theorem mem_allParameters {p : String × Value} :
    p ∈ m.allParameters ↔ ∃ e ∈ m.exprs, .parameter p.1 p.2 ∈ e.nodes := by
  simp only [allParameters, List.mem_flatMap, Expr.mem_allParameters]

theorem parameter_mem_projectionTokens {ctx : Context} {e : Expr} {v : Value}
    (h : .parameter name v ∈ e.nodes) : .parameter name ∈ projectionTokens ctx (some e) := by
  have inColumns : .parameter name v ∈ Expr.nodesOfAll e.columns := by
    cases e with
    | tuple elements nesting => exact (List.mem_cons.1 h).resolve_left nofun
    | _ => exact List.mem_append_left _ h
  obtain ⟨ts, mem, inPart⟩ := mentions_renderValues e.columns inColumns
  exact mem_commaSeparated mem inPart

/-- Each parameter is written. -/
theorem parameter_mem_tokens {p : String × Value} (h : p ∈ m.allParameters) :
    .parameter p.1 ∈ m.tokens dialect := by
  obtain ⟨e, he, hn⟩ := mem_allParameters.1 h
  simp only [exprs, List.mem_append, Option.mem_toList, List.mem_map] at he
  unfold tokens
  simp only [List.mem_append]
  rcases he with (kept | selected) | ⟨key, hkey, rfl⟩
  · rw [kept]
    exact .inl (.inr (List.mem_append_right _ (mentions_render e hn).condition))
  · rw [selected]
    exact .inl (.inl (.inl (.inl (.inr (parameter_mem_projectionTokens hn)))))
  · refine .inr ?_
    split
    · next none => simp [none] at hkey
    · have written : .parameter p.1 ∈ (render (m.emissionContext dialect) key.expr).value :=
        (mentions_render key.expr hn).value
      exact List.mem_append_right _ (mem_commaSeparated (List.mem_map_of_mem hkey)
        (List.mem_append_left _ written))

/-- The parameters that are written are those of the expressions. -/
theorem parameter_mem_tokens_iff :
    .parameter name ∈ m.tokens dialect ↔ ∃ v, (name, v) ∈ m.allParameters := by
  constructor
  · intro h
    have own {ctx : Context} {n : Expr} (h : .parameter name ∈ n.ownTokens ctx) :
        ∃ v, n = .parameter name v := by
      unfold Expr.ownTokens at h
      split at h <;> simp [Context.aliasOf] at h
      exact ⟨_, by rw [h]⟩
    refine forall_tokens (P := fun t => t = .parameter name → ∃ v, (name, v) ∈ m.allParameters)
      ?_ ?_ ?_ ?_ ?_ _ h rfl
    · rintro _ plain rfl
      cases plain
    · intro id _ same
      cases same
    · rintro n hn _ ht rfl
      obtain ⟨v, rfl⟩ := own ht
      cases selected : m.projection with
      | none =>
        rw [element, selected] at hn
        cases List.mem_singleton.1 hn
      | some e =>
        rw [element, selected] at hn
        exact ⟨v, mem_allParameters.2 ⟨e, by simp [exprs, selected], hn⟩⟩
    · rintro e he n hn _ ht rfl
      obtain ⟨v, rfl⟩ := own ht
      exact ⟨v, mem_allParameters.2 ⟨e, he, hn⟩⟩
    · rintro source - _ ht rfl
      cases source <;> simp [Source.ownTokens, Context.aliasOf] at ht
  · rintro ⟨v, h⟩
    exact parameter_mem_tokens h

/-! ### Parameters that are bound -/

variable {d d' : Dictionary Value} {ps : List (String × Value)} {e : CompileError}

/-- Binding finds an equal value or adds what it is given. -/
theorem bindParameter_ok {p : String × Value} (h : bindParameter d p = .ok d') :
    (d' = d ∧ ∃ v, d.find? p.1 = some v ∧ v == p.2) ∨
      (d' = d.insert p.1 p.2 ∧ d.find? p.1 = none) := by
  unfold bindParameter at h
  split at h
  · next bound found =>
    split at h
    · next equal => exact .inl ⟨(Except.ok.inj h).symm, bound, found, equal⟩
    · cases h
  · next unbound => exact .inr ⟨(Except.ok.inj h).symm, unbound⟩

theorem bindParameter_error {p : String × Value} (h : bindParameter d p = .error e) :
    e = .parameterConflict p.1 ∧ ∃ v, d.find? p.1 = some v ∧ (v == p.2) = false := by
  unfold bindParameter at h
  split at h
  · next bound found =>
    split at h
    · cases h
    · next differs =>
      exact ⟨(Except.error.inj h).symm, bound, found, Bool.eq_false_iff.2 differs⟩
  · cases h

/-- What is bound stays, and every parameter is bound to an equal value. -/
theorem find?_of_foldlM (free : ∀ p ∈ ps, p.2.nanFree) (h : ps.foldlM bindParameter d = .ok d') :
    (∀ name v, d.find? name = some v → d'.find? name = some v) ∧
      ∀ p ∈ ps, ∃ v, d'.find? p.1 = some v ∧ v == p.2 := by
  induction ps generalizing d with
  | nil =>
    obtain rfl := Except.ok.inj h
    exact ⟨fun _ _ h => h, List.forall_mem_nil _⟩
  | cons p ps ih =>
    obtain ⟨freeFirst, freeRest⟩ := List.forall_mem_cons.1 free
    rw [List.foldlM_cons] at h
    obtain ⟨next, first, rest⟩ := bind_ok_iff.1 h
    obtain ⟨stays, others⟩ := ih freeRest rest
    rcases bindParameter_ok first with ⟨rfl, v, found, equal⟩ | ⟨rfl, unbound⟩
    · exact ⟨stays, List.forall_mem_cons.2 ⟨⟨v, stays _ v found, equal⟩, others⟩⟩
    · have bound : d'.find? p.1 = some p.2 :=
        stays _ _ (by rw [Dictionary.find?_insert, if_pos rfl])
      refine ⟨fun name v found => stays name v ?_,
        List.forall_mem_cons.2 ⟨⟨p.2, bound, Value.beq_self freeFirst⟩, others⟩⟩
      rw [Dictionary.find?_insert, if_neg (by rintro rfl; simp [unbound] at found)]
      exact found

/-- A name cannot be bound because an earlier parameter of that name has another value. -/
theorem conflict_of_foldlM (h : ps.foldlM bindParameter d = .error e) :
    ∃ p ∈ ps, ∃ v, e = .parameterConflict p.1 ∧ (v == p.2) = false ∧
      (d.find? p.1 = some v ∨ (p.1, v) ∈ ps) := by
  induction ps generalizing d with
  | nil => cases h
  | cons p ps ih =>
    rw [List.foldlM_cons] at h
    cases first : bindParameter d p with
    | error e' =>
      rw [first] at h
      obtain rfl : e' = e := Except.error.inj h
      obtain ⟨conflict, v, found, differs⟩ := bindParameter_error first
      exact ⟨p, List.mem_cons_self, v, conflict, differs, .inl found⟩
    | ok next =>
      rw [first] at h
      obtain ⟨q, hq, v, conflict, differs, earlier⟩ := ih h
      refine ⟨q, List.mem_cons_of_mem _ hq, v, conflict, differs, ?_⟩
      rcases earlier with found | listed
      · rcases bindParameter_ok first with ⟨rfl, -⟩ | ⟨rfl, -⟩
        · exact .inl found
        · rw [Dictionary.find?_insert] at found
          split at found
          · next same =>
            obtain rfl : p.2 = v := Option.some.inj found
            exact .inr (same ▸ List.mem_cons_self)
          · exact .inl found
      · exact .inr (List.mem_cons_of_mem _ listed)

/-- A parameter that is listed with an equal value changes nothing. -/
theorem bindParameter_of_listed {p q : String × Value} (free : ∀ p ∈ ps, p.2.nanFree)
    (h : ps.foldlM bindParameter d = .ok d') (hq : q ∈ ps) (named : q.1 = p.1)
    (equal : q.2 == p.2) : bindParameter d' p = .ok d' := by
  obtain ⟨v, found, same⟩ := (find?_of_foldlM free h).2 q hq
  rw [named] at found
  rw [bindParameter, found]
  exact if_pos (BEq.trans same equal)

/-- That parameters are listed once with each of their values does not matter to what is bound. -/
theorem foldlM_parameters {x : Expr} (free : ∀ p ∈ x.allParameters, p.2.nanFree) :
    x.parameters.foldlM bindParameter d = x.allParameters.foldlM bindParameter d := by
  have listed (qs found : List (String × Value)) (free : ∀ p ∈ found ++ qs, p.2.nanFree) :
      (qs.foldl Expr.addParameter found).foldlM bindParameter d =
        (found ++ qs).foldlM bindParameter d := by
    induction qs generalizing found with
    | nil => rw [List.append_nil, List.foldl_nil]
    | cons q qs ih =>
      rw [List.foldl_cons, Expr.addParameter]
      split
      · next known =>
        obtain ⟨r, hr, same⟩ := List.any_eq_true.1 known
        obtain ⟨named, equal⟩ := Bool.and_eq_true_iff.1 same
        have freeFound : ∀ p ∈ found, p.2.nanFree := fun p hp => free p (List.mem_append_left _ hp)
        rw [ih found fun p hp => free p (by
          rw [List.mem_append, List.mem_cons]
          exact (List.mem_append.1 hp).imp_right .inr)]
        rw [List.foldlM_append, List.foldlM_append]
        cases bound : found.foldlM bindParameter d with
        | error e => rfl
        | ok next =>
          change qs.foldlM bindParameter next = (q :: qs).foldlM bindParameter next
          rw [List.foldlM_cons, bindParameter_of_listed freeFound bound hr (eq_of_beq named) equal]
          rfl
      · rw [ih (found ++ [q]) (by simpa using free), List.append_assoc]
        rfl
  exact listed x.allParameters [] free

theorem collectParameters_eq_foldlM (free : ∀ p ∈ m.allParameters, p.2.nanFree) :
    m.collectParameters = m.allParameters.foldlM bindParameter [] := by
  have flattened (es : List Expr) (d : Dictionary Value)
      (free : ∀ p ∈ es.flatMap Expr.allParameters, p.2.nanFree) :
      (es.flatMap Expr.parameters).foldlM bindParameter d =
        (es.flatMap Expr.allParameters).foldlM bindParameter d := by
    induction es generalizing d with
    | nil => rfl
    | cons x es ih =>
      rw [List.flatMap_cons, List.forall_mem_append] at free
      rw [List.flatMap_cons, List.flatMap_cons, List.foldlM_append, List.foldlM_append,
        foldlM_parameters free.1]
      exact congrArg _ (funext fun next => ih next free.2)
  exact flattened m.exprs [] free

/-! ### Compiled queries -/

/-- Two parameters of one name have different values. -/
def Conflicts (m : QueryModel) (name : String) : Prop :=
  ∃ v w, (name, v) ∈ m.allParameters ∧ (name, w) ∈ m.allParameters ∧ (v == w) = false

theorem conflicts_of_collectParameters (free : ∀ p ∈ m.allParameters, p.2.nanFree)
    (h : m.collectParameters = .error e) : ∃ name, e = .parameterConflict name ∧ m.Conflicts name := by
  rw [collectParameters_eq_foldlM free] at h
  obtain ⟨p, hp, v, conflict, differs, bound | listed⟩ := conflict_of_foldlM h
  · cases bound
  · exact ⟨p.1, conflict, v, p.2, listed, hp, differs⟩

theorem not_conflicts_of_collectParameters (free : ∀ p ∈ m.allParameters, p.2.nanFree)
    (h : m.collectParameters = .ok d) : ¬m.Conflicts name := by
  rw [collectParameters_eq_foldlM free] at h
  rintro ⟨v, w, hv, hw, differs⟩
  obtain ⟨u, found, equal⟩ := (find?_of_foldlM free h).2 _ hv
  obtain ⟨u', found', equal'⟩ := (find?_of_foldlM free h).2 _ hw
  obtain rfl : u = u' := Option.some.inj (found.symm.trans found')
  rw [BEq.trans (BEq.symm equal) equal'] at differs
  cases differs

/-- Only the parameters can keep a model that validates from compiling. -/
theorem compile_of_valid [Libraries] (valid : m.validate = .ok ()) (dialect : Dialect) :
    (∃ e, m.collectParameters = .error e ∧ m.compile dialect = .error e) ∨
      ∃ q, m.compile dialect = .ok q := by
  rw [compile, valid]
  cases collected : m.collectParameters with
  | error e => exact .inl ⟨e, rfl, rfl⟩
  | ok params => exact .inr ⟨_, rfl⟩

/-- A model that validates compiles unless two parameters of one name have different values. The
names that are then bound are those that the text mentions, each to the value that all its
parameters have. -/
theorem parameters_of_compile [Libraries] (valid : m.validate = .ok ())
    (free : ∀ p ∈ m.allParameters, p.2.nanFree) (dialect : Dialect) :
    ((∃ name, m.compile dialect = .error (.parameterConflict name)) ↔ ∃ name, m.Conflicts name) ∧
    (∀ name, m.compile dialect = .error (.parameterConflict name) → m.Conflicts name) ∧
    ((∀ name, ¬m.Conflicts name) → ∃ q, m.compile dialect = .ok q ∧
      q.text = tokensText dialect (m.tokens dialect) ∧
      (∀ name, name ∈ q.params.names ↔ .parameter name ∈ m.tokens dialect) ∧
      ∀ p ∈ m.allParameters, ∃ v, q.params.find? p.1 = some v ∧ v == p.2) := by
  obtain ⟨e, failed, compiled⟩ | ⟨q, compiled⟩ := compile_of_valid valid dialect
  · obtain ⟨name, rfl, conflicts⟩ := conflicts_of_collectParameters free failed
    refine ⟨⟨fun _ => ⟨name, conflicts⟩, fun _ => ⟨name, compiled⟩⟩, fun other h => ?_,
      fun consistent => absurd conflicts (consistent name)⟩
    rw [compiled] at h
    cases h
    exact conflicts
  · obtain ⟨-, collected, text, -⟩ := compile_ok compiled
    have consistent (name : String) : ¬m.Conflicts name :=
      not_conflicts_of_collectParameters free collected
    have failed {name : String} : m.compile dialect ≠ .error (.parameterConflict name) := by
      rw [compiled]
      nofun
    refine ⟨⟨?_, ?_⟩, fun name h => absurd h failed, fun _ => ⟨q, compiled, text, fun name => ?_, ?_⟩⟩
    · exact fun ⟨name, h⟩ => absurd h failed
    · exact fun ⟨name, h⟩ => absurd h (consistent name)
    · rw [collectParameters_eq collected, Dictionary.mem_names_bindAll, parameter_mem_tokens_iff]
      simp [allParameters, Dictionary.names]
    · rw [collectParameters_eq_foldlM free] at collected
      exact (find?_of_foldlM free collected).2

/-- Customers who owe more than a limit, with how far they are beyond it. -/
def beyondLimit (limit known : Int64) : QueryModel where
  sources := [.root "Customer"]
  predicate := some (.binary .gt (.field (.source 0 "Customer") ["debt"] .numeric)
    (.parameter "limit" (.int limit)))
  projection := some (.binary .sub (.field (.source 0 "Customer") ["debt"] .numeric)
    (.parameter "limit" (.int known)))

theorem allParameters_beyondLimit (limit known : Int64) :
    (beyondLimit limit known).allParameters = [("limit", .int limit), ("limit", .int known)] := rfl

theorem nanFree_beyondLimit (limit known : Int64) :
    ∀ p ∈ (beyondLimit limit known).allParameters, p.2.nanFree := by
  rw [allParameters_beyondLimit]
  simp [Value.nanFree]

open Libraries.Plain in
/-- With one limit the query compiles and the limit is bound, with two limits it does not. -/
theorem parameters_of_beyondLimit :
    (∃ q, (beyondLimit 100 100).compile .jpql = .ok q ∧
      q.params.find? "limit" = some (.int 100) ∧
      ∀ name, name ∈ q.params.names ↔ .parameter name ∈ (beyondLimit 100 100).tokens .jpql) ∧
    (beyondLimit 100 200).compile .jpql = .error (.parameterConflict "limit") := by
  constructor
  · have consistent (name : String) : ¬(beyondLimit 100 100).Conflicts name := by
      rintro ⟨v, w, hv, hw, differs⟩
      simp only [allParameters_beyondLimit, List.mem_cons, Prod.mk.injEq, List.not_mem_nil,
        or_false, or_self] at hv hw
      rw [hv.2, hw.2] at differs
      cases differs
    obtain ⟨-, -, compiles⟩ := parameters_of_compile rfl (nanFree_beyondLimit 100 100) .jpql
    obtain ⟨q, compiled, -, names, bound⟩ := compiles consistent
    obtain ⟨v, found, equal⟩ := bound ("limit", .int 100) List.mem_cons_self
    refine ⟨q, compiled, ?_, names⟩
    cases v with
    | int n =>
      obtain rfl : n = 100 := eq_of_beq equal
      exact found
    | _ => cases equal
  · have conflicts : (beyondLimit 100 200).Conflicts "limit" :=
      ⟨.int 100, .int 200, List.mem_cons_self, List.mem_cons_of_mem _ List.mem_cons_self, rfl⟩
    obtain ⟨stops, names, -⟩ := parameters_of_compile rfl (nanFree_beyondLimit 100 200) .jpql
    obtain ⟨name, failed⟩ := stops.2 ⟨"limit", conflicts⟩
    obtain ⟨v, w, hv, -, -⟩ := names name failed
    simp only [allParameters_beyondLimit, List.mem_cons, Prod.mk.injEq, List.not_mem_nil,
      or_false] at hv
    obtain rfl : name = "limit" := hv.elim And.left And.left
    exact failed

end QueryModel
end EntityQuery
