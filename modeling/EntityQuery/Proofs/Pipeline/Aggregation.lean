import EntityQuery.Proofs.Libraries.Plain
import EntityQuery.Proofs.Pipeline.Navigation
import EntityQuery.Proofs.Query.Aggregation
import EntityQuery.Proofs.QueryForm.Growth

/-! Aggregates of pipelines. An aggregate that merges is answered by the data engine with what the
fold over the elements gives, except where a count of distinct elements passes over a null. -/
namespace EntityQuery.Pipeline

variable {p : Pipeline}

/-! ### What every pipeline asks for -/

/-- The element is a formed expression over the sources, of which the first is the entity type that
the pipeline began with. -/
structure Rooted (p : Pipeline) : Prop where
  element : p.model.element.Formed p.metamodel (p.model.sources.map Source.entity)
  root : ∃ entity rest, p.model.sources = .root entity :: rest

theorem Reachable.rooted (h : Reachable p) : Rooted p := ⟨h.sound.element, h.sound.root⟩

/-! ### Aggregates of lambdas -/

variable {db : Database} {l values : List Value} {kind : Aggregate} {m : QueryModel} {v w : Value}
  {run : ClientFunction} {g : Value → Value}

/-- What an aggregate is taken of: a count of the elements, a sum or an extreme of what a lambda
gives for them. Sums are of integers and in range, and comparisons do not contradict each other. -/
inductive Takes (p : Pipeline) (db : Database) (l : List Value) :
    Aggregate → Option Lambda → List Value → Prop
  | count : Takes p db l .count none l
  | sum {f : Lambda} {run : ClientFunction} {g : Value → Value}
    (agrees : p.Agrees db l .aggregate f) (client : f.client = .ok run)
    (succeeds : ∀ v ∈ l, run.on db [v] = .ok (g v)) (free : ∀ v ∈ l, (g v).floatFree)
    (fits : Aggregate.Fits (l.map g)) : Takes p db l .sum (some f) (l.map g)
  | extreme {kind : Aggregate} {f : Lambda} {run : ClientFunction} {g : Value → Value}
    (either : kind = .min ∨ kind = .max) (agrees : p.Agrees db l .aggregate f)
    (client : f.client = .ok run) (succeeds : ∀ v ∈ l, run.on db [v] = .ok (g v))
    (chained : Chained (l.map g)) : Takes p db l kind (some f) (l.map g)

/-- Values without floats need only have a sum in range. -/
theorem takes_of_floatFree {f : Lambda} (either : kind = .sum ∨ kind = .min ∨ kind = .max)
    (agrees : p.Agrees db l .aggregate f) (client : f.client = .ok run)
    (succeeds : ∀ v ∈ l, run.on db [v] = .ok (g v)) (free : ∀ v ∈ l, (g v).floatFree)
    (fits : kind = .sum → Aggregate.Fits (l.map g)) : p.Takes db l kind (some f) (l.map g) := by
  rcases either with rfl | extreme
  · exact .sum agrees client succeeds free (fits rfl)
  · exact .extreme extreme agrees client succeeds (chained_of_floatFree (by simpa using free))

/-- What is merged for a lambda is its expression. -/
theorem aggregateModel_some {f : Lambda} (h : p.aggregateModel kind (some f) = .ok m) :
    ∃ e, p.queryForm .aggregate f = .ok (.expr e) ∧ p.model.aggregate kind (some e) = .ok m := by
  obtain ⟨form, hform, h⟩ := bind_ok_iff.1 h
  obtain ⟨e, he, merged⟩ := bind_ok_iff.1 (mapError_ok_iff.1 h)
  obtain rfl := expression_ok he
  exact ⟨e, hform, merged⟩

/-- The expressions that an aggregate can be taken of: what a lambda stands for, or without a lambda
the first source or a column of the element. -/
inductive Aggregable (p : Pipeline) : Expr → Prop
  | lambda {f : Lambda} {e : Expr} (form : p.queryForm .aggregate f = .ok (.expr e)) :
    Aggregable p e
  | first : Aggregable p p.model.firstSource
  | column {e : Expr} (column : e ∈ p.model.element.columns) : Aggregable p e

theorem aggregateModel_eq {f : Option Lambda} (h : p.aggregateModel kind f = .ok m) :
    ∃ argument, Aggregable p argument ∧ m = p.model.aggregated kind argument := by
  cases f with
  | some f =>
    obtain ⟨e, form, merged⟩ := aggregateModel_some h
    obtain ⟨-, -, argument, -, rfl, given⟩ := QueryModel.aggregate_eq merged
    obtain rfl : e = argument := Except.ok.inj given
    exact ⟨e, .lambda form, rfl⟩
  | none =>
    obtain ⟨-, -, argument, scalar, rfl, given⟩ :=
      QueryModel.aggregate_eq (mapError_ok_iff.1 h)
    rcases QueryModel.mem_columns_of_aggregateArgument given scalar with rfl | column
    · exact ⟨_, .first, rfl⟩
    · exact ⟨argument, .column column, rfl⟩

theorem Reachable.formed_of_aggregable {e : Expr} (h : Reachable p) (aggregable : Aggregable p e) :
    e.Formed p.metamodel (p.model.sources.map Source.entity) := by
  cases aggregable with
  | lambda form => exact formed_of_queryForm form h.sound.element
  | first => exact h.sound.firstSource
  | column column => exact (h.sound.element.of_mem_columns column).1

theorem isTuple_of_same {e b : Expr} (same : e == b) (single : e.isTuple = false) :
    b.isTuple = false := by
  cases b <;> first | rfl | (cases e <;> simp_all [BEq.beq, Expr.same, Expr.isTuple])

/-- A lambda that is taken for the element itself tells distinct elements apart. -/
theorem apart_of_same {f : Lambda} {e : Expr} (rooted : Rooted p)
    (form : p.queryForm .aggregate f = .ok (.expr e)) (same : e == p.model.element)
    (single : e.isTuple = false) (a b : SourceRow) (equal : e.valueOn a = e.valueOn b) :
    p.model.elementOn a = p.model.elementOn b := by
  obtain ⟨t, -, stands, supported⟩ := translation_ok form
  -- literals that compare equal, as zeros of either sign do, need not be the same
  have builds := Trace.queryForm_buildsOn (isTuple_of_same same single) (of_mem_bindings rfl) stands
    supported
  rcases builds.eq_of_same same single with rfl | none
  · exact equal
  · unfold QueryModel.elementOn Expr.valueOn
    rw [rooted.element.value_of_tally none a b]

/-- A data engine answers a merged lambda on what the lambda gives for the elements. -/
theorem answers_of_lambda {f : Lambda} (rooted : Rooted p)
    (elements : p.model.items db = l.map .ok) (agrees : p.Agrees db l .aggregate f)
    (client : f.client = .ok run) (succeeds : ∀ v ∈ l, run.on db [v] = .ok (g v))
    (merges : p.aggregateModel kind (some f) = .ok m) :
    m.Answers db v ↔ kind.Answers (Aggregate.regarded false (l.map g)) v := by
  obtain ⟨e, form, merged⟩ := aggregateModel_some merges
  obtain ⟨unbounded, own, argument, scalar, rfl, given⟩ := QueryModel.aggregate_eq merged
  obtain rfl : e = argument := Except.ok.inj given
  have single := Expr.isTuple_of_isPlural scalar
  have whole := QueryModel.whole_of_items rooted.element unbounded elements
  have read : ∀ row ∈ p.model.kept db, e.value row = .ok (g (p.model.elementOn row)) := by
    intro row hrow
    have mem := QueryModel.elementOn_mem rooted.element unbounded elements hrow
    have hrow := QueryModel.mem_ordered.2 hrow
    exact agrees e run form client row hrow _ mem _ (whole row hrow) (succeeds _ mem)
  have column : Aggregate.once p.model.distinct ((p.model.kept db).map e.valueOn) =
      (l.map g : Multiset Value) :=
    QueryModel.once_column rooted.element unbounded elements
      (fun row hrow => Expr.valueOn_eq (read row hrow)) fun distinct a _ b _ =>
        apart_of_same rooted form (own distinct e rfl) single a b
  rw [QueryModel.answers_aggregated unbounded fun row hrow => Expr.value_eq_valueOn (read row hrow),
    Aggregate.regarded, column]
  rfl

theorem not_countsNull_of_lambda {f : Lambda} (other : kind ≠ .count)
    (merges : p.aggregateModel kind (some f) = .ok m) : ¬m.CountsNull db := by
  obtain ⟨e, -, merged⟩ := aggregateModel_some merges
  obtain ⟨-, -, argument, -, rfl, -⟩ := QueryModel.aggregate_eq merged
  exact fun null => other null.aggregated.1

open Classical in
/-- A data engine counts the elements, save for a null among distinct ones. -/
theorem answers_of_count (rooted : Rooted p)
    (instances : ∀ entity, ∀ v ∈ db entity, v.isNull = false)
    (elements : p.model.items db = l.map .ok) (merges : p.aggregateModel .count none = .ok m) :
    ∃ n, (∀ v, m.Answers db v ↔ v = .int (.ofNat n)) ∧
      n + (if m.CountsNull db then 1 else 0) = l.length := by
  obtain ⟨unbounded, -, argument, scalar, rfl, given⟩ :=
    QueryModel.aggregate_eq (mapError_ok_iff.1 merges)
  cases single : p.model.distinct with
  | false =>
    obtain ⟨entity, rest, root⟩ := rooted.root
    obtain rfl : p.model.firstSource = argument := by
      rw [Option.elim_none, QueryModel.aggregateArgument, if_pos (by simp [single])] at given
      exact Except.ok.inj given
    have answers {v : Value} :
        (p.model.aggregated .count p.model.firstSource).Answers db v ↔
          v = .int (.ofNat l.length) :=
      QueryModel.answers_countRows rooted.element unbounded elements single root (instances entity)
    refine ⟨l.length, fun v => answers, ?_⟩
    rw [if_neg fun null => by simp [null.aggregated.2] at single, Nat.add_zero]
  | true =>
    exact QueryModel.answers_countDistinct rooted.element unbounded elements single
      (QueryModel.columns_of_aggregateArgument single given scalar)

/-- What a data engine answers is what the pipeline gives. -/
theorem aggregate_of_answer [Libraries] {σ : Type} {f : Option Lambda} (merged : p.Merged)
    (merges : p.aggregateModel kind f = .ok m) {q : CompiledQuery}
    (compiled : m.compile p.dialect = .ok q) {executor : Executor σ} {session : Session σ}
    (answer : (executor.fetchOnce ⟨q.text, q.params, q.window⟩ session.executor).1 = .ok [[v]]) :
    (p.aggregate executor kind f session).1 = .ok v := by
  obtain ⟨steps, failure⟩ := merged
  have merging : p.runsClientSide = false := by simp [runsClientSide, steps]
  unfold aggregate
  rw [failure]
  simp only [merging, merges, fetchSingle, compiled, Bool.false_eq_true, if_false]
  simp only [Session.onExecutor, bind, StateT.bind]
  rcases hfetch : executor.fetchOnce ⟨q.text, q.params, q.window⟩ session.executor with ⟨rows, s⟩
  rw [hfetch] at answer
  obtain rfl : rows = .ok [[v]] := answer
  rfl

/-- However a pipeline was built that runs as one query: the data engine answers an aggregate that
merges with what the fold over the elements gives, and with nothing else, except that a count of
distinct elements leaves out a null. -/
theorem aggregate_of_reachable [Libraries] {f : Option Lambda} (reachable : Reachable p)
    (merged : p.Merged) (instances : ∀ entity, ∀ v ∈ db entity, v.isNull = false)
    (elements : p.model.items db = l.map .ok) (takes : p.Takes db l kind f values)
    (merges : p.aggregateModel kind f = .ok m) (folds : kind.fold values = .ok w) :
    ∃ v, (∀ v', m.Answers db v' ↔ v' = v) ∧ (v = w ↔ ¬m.CountsNull db) ∧
      ∀ {σ : Type} (executor : Executor σ) (session : Session σ) (q : CompiledQuery),
        m.compile p.dialect = .ok q →
        (executor.fetchOnce ⟨q.text, q.params, q.window⟩ session.executor).1 = .ok [[v]] →
          (p.aggregate executor kind f session).1 = .ok v := by
  classical
  have rooted := reachable.rooted
  suffices h : ∃ v, (∀ v', m.Answers db v' ↔ v' = v) ∧ (v = w ↔ ¬m.CountsNull db) by
    obtain ⟨v, answers, equal⟩ := h
    exact ⟨v, answers, equal, fun _ _ _ compiled answer =>
      aggregate_of_answer merged merges compiled answer⟩
  cases takes with
  | count =>
    obtain ⟨n, answers, counted⟩ := answers_of_count rooted instances elements merges
    refine ⟨_, answers, ?_⟩
    obtain rfl : .int (.ofNat l.length) = w := Except.ok.inj folds
    rw [Value.int.injEq, ← counted]
    split
    · next null => simp [null]
    · next none => simp [none]
  | @sum f run g agrees client succeeds free fits =>
    have taken : ∀ v ∈ l.map g, v.floatFree := by simpa using free
    refine ⟨w, fun v' => ?_, by simp [not_countsNull_of_lambda (by simp) merges]⟩
    rw [answers_of_lambda rooted elements agrees client succeeds merges]
    exact Aggregate.answers_fold folds (.inl ⟨rfl, taken, fits⟩)
  | extreme either agrees client succeeds chained =>
    refine ⟨w, fun v' => ?_, ?_⟩
    · rw [answers_of_lambda rooted elements agrees client succeeds merges]
      exact Aggregate.answers_fold folds (.inr ⟨either, chained⟩)
    · have other : kind ≠ .count := by rintro rfl; simp at either
      simp [not_countsNull_of_lambda other merges]

/-- Debts are read alike where customers conform. -/
theorem owed_agrees {clause : Clause} (single : clause ≠ .join)
    (conform : ∀ v ∈ db "Customer", debtors.ConformingRow ["Customer"] [v]) :
    customers.Agrees db l clause owed := by
  refine agrees_of_conforming single (fun row hrow => ?_) (.source rfl)
    (Expr.allArmsAgree_leaf rfl rfl) ?_
  · have among := (List.mem_filter.1 (QueryModel.mem_ordered.1 hrow)).1
    obtain ⟨before, hbefore, hrow⟩ := List.mem_flatMap.1 among
    obtain rfl := List.mem_singleton.1 hbefore
    obtain ⟨v, hv, rfl⟩ := List.mem_map.1 hrow
    exact conform v hv
  · rintro t ⟨⟩
    simp [Trace.BranchesAgree]

def debt : Expr := .field (.source 0 "Customer") ["debt"] .numeric

open Libraries.Plain in
theorem sum_of_owed :
    customers.aggregateModel .sum (some owed) = .ok (customers.model.aggregated .sum debt) ∧
      ∀ v, (customers.model.aggregated .sum debt).Answers twoCustomers v ↔ v = .int 1 := by
  have reachable : Reachable customers := ⟨_, _, .refl⟩
  have instances : ∀ entity, ∀ v ∈ twoCustomers entity, v.isNull = false := by
    simp [twoCustomers, customerOwing, Value.isNull]
  have run : Run twoCustomers "Customer" customers [] (twoCustomers "Customer") := .all rfl
  have conform : ∀ v ∈ twoCustomers "Customer", debtors.ConformingRow ["Customer"] [v] := by
    simp [twoCustomers, customerOwing_conforms]
  have succeeds : ∀ v ∈ twoCustomers "Customer",
      (ClientFunction.traced owedTrace).on twoCustomers [v] = .ok (owedBy v) := by
    simp only [twoCustomers, List.forall_mem_cons]
    exact ⟨owedTrace_on 0 true, owedTrace_on 1 false, by simp⟩
  have takes : customers.Takes twoCustomers (twoCustomers "Customer") .sum (some owed)
      [.int 0, .int 1] :=
    takes_of_floatFree (.inl rfl) (owed_agrees (by simp) conform) rfl succeeds
      (by simp [twoCustomers, customerOwing, owedBy, Value.floatFree]) fun _ => ⟨1, by decide⟩
  have merges : customers.aggregateModel .sum (some owed) =
      .ok (customers.model.aggregated .sum debt) := rfl
  have folds : Aggregate.sum.fold [.int 0, .int 1] = .ok (.int 1) := rfl
  obtain ⟨v, answers, equal, -⟩ := aggregate_of_reachable reachable ⟨rfl, rfl⟩ instances
    run.mirrors.items takes merges folds
  obtain rfl : v = .int 1 := equal.2 (not_countsNull_of_lambda (by simp) merges)
  exact ⟨merges, answers⟩

/-! ### A customer whose debt is not known -/

def customerUnknown : Value := .entity "Customer" [("debt", .null), ("vip", .bool false)]

def oneUnknown : Database := fun _ => [customerUnknown, customerOwing 1 false]

/-- The distinct debts. -/
def debts : Pipeline := (customers.select owed).distinct

theorem oneUnknown_conforms :
    ∀ v ∈ oneUnknown "Customer", debtors.ConformingRow ["Customer"] [v] := by
  simp only [oneUnknown, List.forall_mem_cons]
  refine ⟨.cons (.entity_of_entries ?_) .nil, customerOwing_conforms 1 false, by simp⟩
  simp only [List.forall_mem_cons]
  refine ⟨fun kind h => ?_, fun kind h => ?_, by simp⟩
  · cases h
    exact .null _
  · cases h
    exact .bool false

open Libraries.Plain in
theorem items_of_debts : debts.model.items oneUnknown = [.ok .null, .ok (.int 1)] := by
  have opened : Run oneUnknown "Customer" customers [] (oneUnknown "Customer") := .all rfl
  have succeeds : ∀ v ∈ oneUnknown "Customer",
      (ClientFunction.traced owedTrace).on oneUnknown [v] = .ok (owedBy v) := by
    simp only [oneUnknown, List.forall_mem_cons]
    exact ⟨rfl, rfl, by simp⟩
  have selected : Run oneUnknown "Customer" (customers.apply (.select owed)) _
      [.null, .int 1] :=
    .operation opened ⟨rfl, rfl⟩ rfl (.map succeeds) (owed_agrees (by simp) oneUnknown_conforms)
  have distinct : Run oneUnknown "Customer" (Pipeline.apply _ .distinct) _ _ :=
    .operation selected ⟨rfl, rfl⟩ rfl .distinct (.inl (by simp [Value.floatFree]))
  have apart : Value.key (.int 1) ≠ Value.key .null := by decide +kernel
  have twice : keepFirst Value.key [.null, .int 1] = [.null, .int 1] := by
    simp [keepFirst, apart]
  rw [twice] at distinct
  exact distinct.mirrors.items

/-- Of two distinct debts the data engine counts only the one that is known, while the fold over
the elements counts both. -/
theorem count_of_debts : Reachable debts ∧ debts.Merged ∧
    (∀ entity, ∀ v ∈ oneUnknown entity, v.isNull = false ∧ v.floatFree) ∧
    debts.model.items oneUnknown = [.ok .null, .ok (.int 1)] ∧
    Aggregate.count.fold [.null, .int 1] = .ok (.int 2) ∧
    debts.aggregateModel .count none = .ok (debts.model.aggregated .count debt) ∧
    ∀ v, (debts.model.aggregated .count debt).Answers oneUnknown v ↔ v = .int 1 := by
  have reached : Reachable debts :=
    ⟨_, _, .tail (.tail .refl (.operation (.select owed))) (.operation .distinct)⟩
  have instances : ∀ entity, ∀ v ∈ oneUnknown entity, v.isNull = false ∧ v.floatFree := by
    simp [oneUnknown, customerUnknown, customerOwing, Value.isNull, Value.floatFree,
      Value.floatFreeEntries]
  have merges : debts.aggregateModel .count none = .ok (debts.model.aggregated .count debt) := rfl
  have unknown : (debts.model.aggregated .count debt).CountsNull oneUnknown := by
    have among : [customerUnknown] ∈ debts.model.kept oneUnknown :=
      List.mem_filter.2 ⟨List.mem_cons_self, rfl⟩
    exact ⟨debt, rfl, _, among, rfl⟩
  have elements : debts.model.items oneUnknown = [Value.null, .int 1].map .ok := items_of_debts
  obtain ⟨n, answers, counted⟩ := answers_of_count reached.rooted
    (fun entity v hv => (instances entity v hv).1) elements merges
  obtain rfl : n = 1 := by simpa [unknown] using counted
  exact ⟨reached, ⟨rfl, rfl⟩, instances, elements, rfl, merges, answers⟩

end EntityQuery.Pipeline
