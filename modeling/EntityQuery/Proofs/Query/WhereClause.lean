import EntityQuery.Proofs.QueryForm.Agreement
import EntityQuery.Proofs.Query.ThreeValued

/-! A filter in the query against the same filter on the client. The two never contradict each
other, but the query drops an element that the client keeps when its predicate is unknown. -/
namespace EntityQuery

open EntityQuery.Expr

variable {m : Metamodel} {sources : List String}

namespace QueryEngine

variable (engine : QueryEngine) (row : SourceRow)

/-- A condition that is true on the client is not unknown in the query. -/
def Keeps (c : Expr) : Prop :=
  ¬ (c.value row = .ok (.bool true) ∧ (engine.outcome row c).truth = .unknown)

/-- What is asked of the parts of an expression where a value and where a condition stands. -/
structure Settled where
  value : Prop
  condition : Prop

mutual

/-- As far as the client computes an expression, each condition that stands in a `CASE` is kept,
and nothing is concatenated with null. -/
def settled : Expr → Settled
  | .field base _ _ => ⟨(settled base).value, (settled base).value⟩
  | .binary op l r =>
    if op.isLogical then
      let inner := (settled l).condition ∧
        ∀ a, l.value row = .ok a → decidesAlone op a = false → (settled r).condition
      ⟨inner ∧ engine.Keeps row (.binary op l r), inner⟩
    else
      let inner := (settled l).value ∧ (settled r).value ∧
        (op = .concat → l.value row ≠ .ok .null ∧ r.value row ≠ .ok .null)
      ⟨inner ∧ (op.isComparison → engine.Keeps row (.binary op l r)), inner⟩
  | .unary op e =>
    if op = .not then
      ⟨(settled e).condition ∧ engine.Keeps row (.unary op e), (settled e).condition⟩
    else ⟨(settled e).value, (settled e).value⟩
  | .conditional c a b =>
    { value := (settled c).condition ∧ engine.Keeps row c ∧
        (c.value row = .ok (.bool true) → (settled a).value) ∧
        (c.value row = .ok (.bool false) → (settled b).value)
      condition := (settled c).condition ∧
        (c.value row = .ok (.bool true) → (settled a).condition) ∧
        (c.value row = .ok (.bool false) → (settled b).condition) }
  | .tuple es _ | .apply _ es => ⟨settledAll es, settledAll es⟩
  | _ => ⟨True, True⟩

def settledAll : List Expr → Prop
  | [] => True
  | e :: es => (settled e).value ∧ settledAll es

end

variable {engine row} {e : Expr} {v : Value}

/-- The query and the client agree on an expression as a value, and do not contradict each other on
it as a condition. -/
structure Agrees (engine : QueryEngine) (row : SourceRow) (e : Expr) (v : Value) : Prop where
  value : (engine.settled row e).value → (engine.outcome row e).value = v
  condition : (engine.settled row e).condition →
    ∀ b, v = .bool b → (engine.outcome row e).truth.Allows b

theorem allows_testOf_truth {b : Bool} (h : v = .bool b) :
    (engine.testOf .eq v (.bool true)).Allows b := by
  subst h
  cases b <;> exact .inl rfl

/-- What is a value in both positions. -/
theorem agrees_of_value {P : Prop} (hs : engine.settled row e = ⟨P, P⟩)
    (ho : engine.outcome row e = .ofValue engine (engine.outcome row e).value)
    (h : P → (engine.outcome row e).value = v) : engine.Agrees row e v where
  value := by rw [hs]; exact h
  condition := by
    rw [hs]
    intro settled b hb
    have truth := congrArg Outcome.truth ho
    rw [truth]
    show (engine.testOf .eq (engine.outcome row e).value (.bool true)).Allows b
    exact allows_testOf_truth ((h settled).trans hb)

/-- What is a condition in both positions. -/
theorem agrees_of_condition {P : Prop} (hs : engine.settled row e = ⟨P ∧ engine.Keeps row e, P⟩)
    (ho : engine.outcome row e = .ofTruth (engine.outcome row e).truth)
    (hv : e.value row = .ok v) (bool : ∃ b, v = .bool b)
    (h : P → ∀ b, v = .bool b → (engine.outcome row e).truth.Allows b) : engine.Agrees row e v where
  value := by
    rw [hs]
    rintro ⟨settled, keeps⟩
    obtain ⟨b, rfl⟩ := bool
    have value := congrArg Outcome.value ho
    have same := (h settled b rfl).holds_iff.2 fun ⟨hb, unknown⟩ => keeps ⟨hb ▸ hv, unknown⟩
    rw [value, Outcome.ofTruth, Value.bool.injEq, Bool.eq_iff_iff, decide_eq_true_iff]
    exact same.symm
  condition := by rw [hs]; exact h

/-- A test whose answer is never unknown. -/
theorem agrees_of_test {P : Prop} {t : Bool} (hs : engine.settled row e = ⟨P, P⟩)
    (h : P → engine.outcome row e = .ofTruth (.ofBool t)) (hv : v = .bool t) :
    engine.Agrees row e v where
  value := by
    rw [hs]
    intro settled
    rw [h settled, hv]
    cases t <;> rfl
  condition := by
    rw [hs]
    intro settled b hb
    obtain rfl : t = b := by simpa [hv] using hb
    rw [h settled]
    exact .inl rfl

theorem foldl_readAttributeOf {path : List String} {a : Value} (h : readPath a path = .ok v) :
    path.foldl engine.readAttributeOf a = v := by
  induction path generalizing a with
  | nil => cases h; rfl
  | cons name path ih =>
    rw [readPath, List.foldlM_cons, bind_ok_iff] at h
    obtain ⟨w, hw, h⟩ := h
    have step : engine.readAttributeOf a name = w := by
      unfold readAttributeOf
      cases a <;> first | cases hw | skip
      simp [Value.isNull, hw]
    rw [List.foldl_cons, step]
    exact ih h

theorem binaryOf_eq {op : BinaryOp} {a b : Value} (null : a.isNull = false ∧ b.isNull = false)
    (h : Value.binary op a b = .ok v) : engine.binaryOf op a b = v := by
  simp [binaryOf, null.1, null.2, h]

/-- A test is unknown or what it is on values. -/
theorem allows_testOf {op : BinaryOp} {a b : Value} {t : Bool}
    (h : Value.binary op a b = .ok (.bool t)) : (engine.testOf op a b).Allows t := by
  unfold testOf
  split
  · exact .inr rfl
  · rw [h]; exact .inl rfl

theorem bool_of_comparison {op : BinaryOp} {a b : Value} (comparison : op.isComparison)
    (h : Value.binary op a b = .ok v) : ∃ t, v = .bool t := by
  have ordered (h : Value.comparison op a b = .ok v) : ∃ t, v = .bool t := by
    unfold Value.comparison at h
    split at h
    · exact ⟨_, (Except.ok.inj h).symm⟩
    · split at h
      · exact ⟨_, (Except.ok.inj h).symm⟩
      · cases h
  cases op with
  | eq => exact ⟨_, (Except.ok.inj h).symm⟩
  | ne => exact ⟨_, (Except.ok.inj h).symm⟩
  | lt => exact ordered h
  | gt => exact ordered h
  | le => exact ordered h
  | ge => exact ordered h
  | _ => cases comparison

/-- A logical operation has truth values where it has a value. -/
theorem bools_of_logical {op : BinaryOp} {a b : Value} (h : Value.logical op a b = .ok v) :
    ∃ p q, a = .bool p ∧ b = .bool q ∧ v = .bool (if op = .and then p && q else p || q) := by
  unfold Value.logical at h
  split at h
  · next p q hp hq =>
    cases a <;> simp [Value.asBool?] at hp
    cases b <;> simp [Value.asBool?] at hq
    subst hp hq
    exact ⟨_, _, rfl, rfl, (Except.ok.inj h).symm⟩
  · cases h
  · cases h

section Operations

variable {l r : Expr}

/-- The left operand is settled, and the right one where it is computed. -/
def OperandsSettled (engine : QueryEngine) (row : SourceRow) (op : BinaryOp) (l r : Expr) : Prop :=
  (engine.settled row l).condition ∧
    ∀ a, l.value row = .ok a → decidesAlone op a = false → (engine.settled row r).condition

theorem agrees_logical {op : BinaryOp} (logical : op.isLogical)
    (hl : ∀ a, l.value row = .ok a → engine.Agrees row l a)
    (hr : ∀ b, r.value row = .ok b → engine.Agrees row r b)
    (hv : (Expr.binary op l r).value row = .ok v) : engine.Agrees row (.binary op l r) v := by
  have hs : engine.settled row (.binary op l r) =
      ⟨OperandsSettled engine row op l r ∧ engine.Keeps row (.binary op l r),
        OperandsSettled engine row op l r⟩ := by
    simp [settled, OperandsSettled, logical]
  have ho : engine.outcome row (.binary op l r) =
      .ofTruth (.logical op (engine.outcome row l).truth (engine.outcome row r).truth) := by
    simp [outcome, ofBinary, logical]
  obtain ⟨a, ha, h⟩ := value_binary.1 hv
  cases alone : decidesAlone op a with
  | true =>
    obtain rfl : v = a := by simpa [alone] using h
    obtain ⟨p, rfl⟩ : ∃ p, v = .bool p := by
      unfold decidesAlone at alone
      split at alone <;> first | exact ⟨_, rfl⟩ | cases alone
    refine agrees_of_condition hs (by rw [ho]; rfl) hv ⟨p, rfl⟩ ?_
    rintro ⟨settledLeft, -⟩ b hb
    cases hb
    rw [ho]
    exact ((hl _ ha).condition settledLeft p rfl).logical_alone alone
  | false =>
    obtain ⟨b, hb, h⟩ : ∃ b, r.value row = .ok b ∧ Value.binary op a b = .ok v := by
      simpa [alone] using h
    have both : Value.logical op a b = .ok v := by
      cases op <;> first | exact h | cases logical
    obtain ⟨p, q, rfl, rfl, rfl⟩ := bools_of_logical both
    refine agrees_of_condition hs (by rw [ho]; rfl) hv ⟨_, rfl⟩ ?_
    rintro ⟨settledLeft, settledRight⟩ t ht
    cases ht
    rw [ho]
    exact ((hl _ ha).condition settledLeft p rfl).logical op
      ((hr _ hb).condition (settledRight _ ha alone) q rfl)

/-- Both operands are settled, and neither is null where they are concatenated. -/
def ValuesSettled (engine : QueryEngine) (row : SourceRow) (op : BinaryOp) (l r : Expr) : Prop :=
  (engine.settled row l).value ∧ (engine.settled row r).value ∧
    (op = .concat → l.value row ≠ .ok .null ∧ r.value row ≠ .ok .null)

theorem agrees_comparison {op : BinaryOp} (logical : op.isLogical = false)
    (comparison : op.isComparison) (hl : ∀ a, l.value row = .ok a → engine.Agrees row l a)
    (hr : ∀ b, r.value row = .ok b → engine.Agrees row r b)
    (hv : (Expr.binary op l r).value row = .ok v) : engine.Agrees row (.binary op l r) v := by
  have hs : engine.settled row (.binary op l r) =
      ⟨ValuesSettled engine row op l r ∧ engine.Keeps row (.binary op l r),
        ValuesSettled engine row op l r⟩ := by
    simp [settled, ValuesSettled, logical, comparison]
  have ho : engine.outcome row (.binary op l r) =
      .ofTruth (engine.testOf op (engine.outcome row l).value (engine.outcome row r).value) := by
    simp [outcome, ofBinary, logical, comparison]
  obtain ⟨a, b, ha, hb, h⟩ := (value_binary_of_not_logical logical).1 hv
  obtain ⟨t, rfl⟩ := bool_of_comparison comparison h
  refine agrees_of_condition hs (by rw [ho]; rfl) hv ⟨t, rfl⟩ ?_
  rintro ⟨settledLeft, settledRight, -⟩ t ht
  cases ht
  rw [ho, (hl a ha).value settledLeft, (hr b hb).value settledRight]
  exact allows_testOf h

/-- An operation on null that has a value concatenates. -/
theorem not_null_of_arithmetic {op : BinaryOp} {a b : Value} (logical : op.isLogical = false)
    (comparison : op.isComparison = false) (other : op ≠ .concat)
    (numbers : op = .add → a.isString = false ∧ b.isString = false)
    (h : Value.binary op a b = .ok v) : a.isNull = false ∧ b.isNull = false := by
  have arithmetic : Value.arithmetic op a b = .ok v := by
    cases op with
    | add => simpa [Value.binary, numbers rfl] using h
    | concat => exact absurd rfl other
    | sub => exact h
    | mul => exact h
    | div => exact h
    | mod => exact h
    | and => cases logical
    | or => cases logical
    | _ => cases comparison
  constructor
  · cases a <;> first | rfl | exact absurd arithmetic (QueryForm.arithmetic_null (.inl rfl))
  · cases b <;> first | rfl | exact absurd arithmetic (QueryForm.arithmetic_null (.inr rfl))

theorem agrees_operation {op : BinaryOp} (logical : op.isLogical = false)
    (comparison : op.isComparison = false)
    (numbers : op = .add → ∀ a b, l.value row = .ok a → r.value row = .ok b →
      a.isString = false ∧ b.isString = false)
    (hl : ∀ a, l.value row = .ok a → engine.Agrees row l a)
    (hr : ∀ b, r.value row = .ok b → engine.Agrees row r b)
    (hv : (Expr.binary op l r).value row = .ok v) : engine.Agrees row (.binary op l r) v := by
  have hs : engine.settled row (.binary op l r) =
      ⟨ValuesSettled engine row op l r, ValuesSettled engine row op l r⟩ := by
    simp [settled, ValuesSettled, logical, comparison]
  have ho : engine.outcome row (.binary op l r) = .ofValue engine
      (engine.binaryOf op (engine.outcome row l).value (engine.outcome row r).value) := by
    simp [outcome, ofBinary, logical, comparison]
  obtain ⟨a, b, ha, hb, h⟩ := (value_binary_of_not_logical logical).1 hv
  refine agrees_of_value hs (by rw [ho]; rfl) ?_
  rintro ⟨settledLeft, settledRight, texts⟩
  rw [ho, (hl a ha).value settledLeft, (hr b hb).value settledRight]
  refine binaryOf_eq ?_ h
  by_cases concat : op = .concat
  · obtain ⟨left, right⟩ := texts concat
    constructor
    · cases a <;> first | rfl | exact absurd ha left
    · cases b <;> first | rfl | exact absurd hb right
  · exact not_null_of_arithmetic logical comparison concat (fun add => numbers add a b ha hb) h

theorem agrees_unary {op : UnaryOp} (he : ∀ a, e.value row = .ok a → engine.Agrees row e a)
    (hv : (Expr.unary op e).value row = .ok v) : engine.Agrees row (.unary op e) v := by
  obtain ⟨a, ha, h⟩ := value_unary.1 hv
  cases op with
  | not =>
    obtain ⟨b, rfl, rfl⟩ : ∃ b, a = .bool b ∧ v = .bool !b := by
      cases a <;> cases h
      exact ⟨_, rfl, rfl⟩
    refine agrees_of_condition (P := (engine.settled row e).condition) rfl rfl hv ⟨_, rfl⟩ ?_
    intro settled t ht
    cases ht
    exact ((he _ ha).condition settled b rfl).not
  | neg =>
    refine agrees_of_value (P := (engine.settled row e).value) rfl rfl fun settled => ?_
    show engine.unaryOf .neg (engine.outcome row e).value = v
    rw [(he a ha).value settled]
    cases a <;> cases h <;> rfl
  | isNull =>
    refine agrees_of_test (P := (engine.settled row e).value) rfl (fun settled => ?_)
      (Except.ok.inj h).symm
    show Outcome.ofTruth (.ofBool (engine.outcome row e).value.isNull) = _
    rw [(he a ha).value settled]
  | isNotNull =>
    refine agrees_of_test (P := (engine.settled row e).value) rfl (fun settled => ?_)
      (Except.ok.inj h).symm
    show Outcome.ofTruth (.ofBool !(engine.outcome row e).value.isNull) = _
    rw [(he a ha).value settled]

theorem agrees_conditional {c a b : Expr} (hc : ∀ w, c.value row = .ok w → engine.Agrees row c w)
    (ha : ∀ w, a.value row = .ok w → engine.Agrees row a w)
    (hb : ∀ w, b.value row = .ok w → engine.Agrees row b w)
    (hv : (Expr.conditional c a b).value row = .ok v) :
    engine.Agrees row (.conditional c a b) v := by
  obtain ⟨p, hp, taken⟩ : ∃ p, c.value row = .ok (.bool p) ∧
      (if p then a else b).value row = .ok v := by
    rcases value_conditional.1 hv with ⟨h, hv⟩ | ⟨h, hv⟩
    · exact ⟨true, h, hv⟩
    · exact ⟨false, h, hv⟩
  refine ⟨fun settled => ?_, fun settled t ht => ?_⟩
  · obtain ⟨settledC, keeps, settledA, settledB⟩ := settled
    have same := (((hc _ hp).condition settledC p rfl).holds_iff.2
      fun ⟨h, unknown⟩ => keeps ⟨h ▸ hp, unknown⟩)
    show (if (engine.outcome row c).truth = .holds then (engine.outcome row a).value
      else (engine.outcome row b).value) = v
    cases p with
    | true =>
      rw [if_pos (same.1 rfl)]
      exact (ha v taken).value (settledA hp)
    | false =>
      rw [if_neg fun h => by cases same.2 h]
      exact (hb v taken).value (settledB hp)
  · obtain ⟨settledC, settledA, settledB⟩ := settled
    refine ((hc _ hp).condition settledC p rfl).branch ?_
    cases p with
    | true => exact (ha v taken).condition (settledA hp) t ht
    | false => exact (hb v taken).condition (settledB hp) t ht

/-- Settled members have the values they have on the client. -/
theorem outcomeValues_eq {es : List Expr} {vs : List Value} (hvs : values row es = .ok vs)
    (h : ∀ e ∈ es, ∀ a, e.value row = .ok a → engine.Agrees row e a)
    (settled : engine.settledAll row es) : engine.outcomeValues row es = vs := by
  induction es generalizing vs with
  | nil => cases hvs; rfl
  | cons e es ih =>
    obtain ⟨w, ws, hw, hws, rfl⟩ := values_cons.1 hvs
    rw [outcomeValues, (h e List.mem_cons_self w hw).value settled.1,
      ih hws (fun e he => h e (List.mem_cons_of_mem _ he)) settled.2]

end Operations

/-- Over conforming sources the query and the client agree on formed expressions as far as these
are settled. -/
theorem agrees (h : e.Formed m sources) (hrow : m.ConformingRow sources row)
    (arms : e.AllArmsAgree) (hv : e.value row = .ok v) : engine.Agrees row e v := by
  induction h generalizing v with
  | constant l =>
    cases hv
    cases l with
    | bool b => exact agrees_of_test (P := True) rfl (fun _ => by cases b <;> rfl) rfl
    | _ => exact agrees_of_value (P := True) rfl rfl fun _ => rfl
  | parameter _ =>
    cases hv
    exact agrees_of_value (P := True) rfl rfl fun _ => rfl
  | @source id entity _ =>
    refine agrees_of_value (P := True) rfl rfl fun _ => ?_
    show row[id]?.getD (engine.source id) = v
    rw [Expr.value] at hv
    split at hv
    · next w hw => cases hv; rw [hw]; rfl
    · cases hv
  | @field base path type _ _ _ _ ih =>
    obtain ⟨a, ha, hpath⟩ := value_field.1 hv
    refine agrees_of_value (P := (engine.settled row base).value) rfl rfl fun settled => ?_
    show path.foldl engine.readAttributeOf (engine.outcome row base).value = v
    rw [(ih (allArmsAgree_field.1 arms) ha).value settled]
    exact foldl_readAttributeOf hpath
  | @binary op l r left right resolved admitted ihl ihr =>
    obtain ⟨armsLeft, armsRight⟩ := allArmsAgree_binary.1 arms
    have hl a ha := ihl armsLeft (v := a) ha
    have hr b hb := ihr armsRight (v := b) hb
    cases logical : op.isLogical with
    | true => exact agrees_logical logical hl hr hv
    | false =>
      cases comparison : op.isComparison with
      | true => exact agrees_comparison logical comparison hl hr hv
      | false =>
        refine agrees_operation logical comparison (fun add a b ha hb => ?_) hl hr hv
        subst add
        have notText := QueryForm.ne_string_of_resolveOp resolved
        exact ⟨(left.conforms hrow armsLeft ha).isString_eq_false notText.1,
          (right.conforms hrow armsRight hb).isString_eq_false notText.2⟩
  | unary _ _ ih => exact agrees_unary (fun a ha => ih (allArmsAgree_unary.1 arms) ha) hv
  | conditional _ _ _ _ _ _ ihc iha ihb =>
    obtain ⟨-, armsC, armsA, armsB⟩ := allArmsAgree_conditional.1 arms
    exact agrees_conditional (fun w hw => ihc armsC hw) (fun w hw => iha armsA hw)
      (fun w hw => ihb armsB hw) hv
  | @tuple es parts _ _ _ ih =>
    obtain ⟨vs, hvs, rfl⟩ := value_tuple.1 hv
    refine agrees_of_value (P := engine.settledAll row es) rfl rfl fun settled => ?_
    show ((Nesting.group parts).build (engine.outcomeValues row es)).1 = _
    rw [outcomeValues_eq hvs (fun e he a ha => ih e he (allArmsAgree_tuple.1 arms e he) ha) settled]
  | @apply fn es _ _ ih =>
    obtain ⟨a, vs, hvs, happly⟩ := value_apply.1 hv
    refine agrees_of_value (P := engine.settledAll row es) rfl rfl fun settled => ?_
    show engine.applyOf fn (engine.outcomeValues row es) = v
    rw [outcomeValues_eq hvs (fun e he a ha => ih e he (allArmsAgree_apply.1 arms e he) ha) settled,
      applyOf, happly]

/-- An engine for which all that has no value here is `NULL`. -/
def nullEngine : QueryEngine where
  source _ := .null
  readAttribute _ _ := .null
  binary _ _ _ := .null
  test _ _ _ := .unknown
  unary _ _ := .null
  apply _ _ := .null

end QueryEngine

/-- Where the predicate of a filter is settled, the query keeps the elements that the client keeps
exactly when the predicate is not unknown of an element that the client keeps. -/
theorem Trace.filter_keeps_iff {τ : Type} (engine : QueryEngine) (source : EntitySource τ)
    (state : τ) (calls : List Invocation) {row : SourceRow} {t : Trace} {id : Nat} {entity : String}
    {element : Value} {e : Expr} {b : Bool} (hrow : m.ConformingRow sources row)
    (known : sources[id]? = some entity) (helement : row[id]? = some element)
    (branches : t.BranchesAgree m [.element (.source id entity)])
    (form : t.queryForm m [.element (.source id entity)] = .expr e)
    (supported : e.isUnsupported = false)
    (run : ((ClientFunction.traced t).call source [element] calls state).1 = .ok (.bool b))
    (settled : (engine.settled row e).condition) :
    (b = true ↔ engine.truthOfForm row e.predicateForm = .holds) ↔
      ¬ (b = true ∧ engine.truthOfForm row e.predicateForm = .unknown) := by
  have origin : (Expr.source id entity).value row = .ok element := by
    rw [Expr.value, helement]
  have sourceFormed : ∀ b ∈ [Expr.source id entity], b.Formed m sources := by
    simpa using Expr.Formed.source known
  have sourceArms : ∀ b ∈ [Expr.source id entity], b.AllArmsAgree := by
    simp [AllArmsAgree, nodes, armsAgree]
  obtain ⟨formed, arms⟩ := t.queryForm_formed sourceFormed sourceArms branches form supported
  have value := t.value_of_call hrow sourceFormed sourceArms branches (.cons origin .nil) form
    supported run
  rw [← engine.truth_eq]
  exact ((QueryEngine.agrees formed hrow arms value).condition settled b rfl).holds_iff

/-- `fun c => c.name != "x"` -/
def nameTest : Trace :=
  ⟨1, [.param 0, .field 0 "name", .const (.string "x"), .binary .ne 1 2], 3⟩

def namedCustomers : Metamodel := [("Customer", [("name", .scalar .string)])]

def customerNamed (name : Value) : Value := .entity "Customer" [("name", name)]

theorem customerNamed_conforms {name : Value} (h : namedCustomers.Conforms .string name) :
    namedCustomers.ConformingRow ["Customer"] [customerNamed name] := by
  refine .cons (.entity_of_entries ?_) .nil
  simp only [List.forall_mem_singleton]
  intro kind declared
  cases declared
  exact h

/-- The predicate of the test, `A.name <> 'x'`. -/
def nameDiffers : Expr :=
  .binary .ne (.field (.source 0 "Customer") ["name"] .string) (.constant (.string "x"))

/-- With a name the query keeps what the client keeps. -/
theorem filter_keeps_named : (true = true ↔
    QueryEngine.nullEngine.truthOfForm [customerNamed (.string "y")] nameDiffers.predicateForm
      = .holds) ↔
      ¬ (true = true ∧
        QueryEngine.nullEngine.truthOfForm [customerNamed (.string "y")] nameDiffers.predicateForm
          = .unknown) := by
  have branches : nameTest.BranchesAgree namedCustomers [.element (.source 0 "Customer")] := by
    simp [Trace.BranchesAgree, nameTest]
  exact Trace.filter_keeps_iff QueryEngine.nullEngine noEntities () []
    (customerNamed_conforms (.string "y")) rfl rfl branches rfl rfl rfl
    ⟨trivial, trivial, fun h => by cases h⟩

/-- Without a name the client keeps the customer, and to the query the test is unknown. -/
theorem filter_drops_unnamed :
    namedCustomers.ConformingRow ["Customer"] [customerNamed .null] ∧
    nameTest.queryForm namedCustomers [.element (.source 0 "Customer")] = .expr nameDiffers ∧
    ((ClientFunction.traced nameTest).call noEntities [customerNamed .null] [] ()).1
      = .ok (.bool true) ∧
    QueryEngine.nullEngine.truthOfForm [customerNamed .null] nameDiffers.predicateForm = .unknown ∧
    ¬ (true = true ↔
      QueryEngine.nullEngine.truthOfForm [customerNamed .null] nameDiffers.predicateForm
        = .holds) :=
  ⟨customerNamed_conforms (.null _), rfl, rfl, rfl, fun h => nomatch h.1 rfl⟩

end EntityQuery
