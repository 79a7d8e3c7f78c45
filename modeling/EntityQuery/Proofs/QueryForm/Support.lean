import EntityQuery.Proofs.Lambda.Scoping
import EntityQuery.Proofs.QueryForm.Agreement

/-! A lambda translates as a whole or not at all. What it translates to has no unsupported part, and
an external call anywhere leaves no translation. -/
namespace EntityQuery

namespace Expr

variable {e : Expr}

theorem reason?_eq_none : e.reason? = none ↔ e.isUnsupported = false := by
  cases e <;> simp [reason?, isUnsupported]

theorem firstUnsupported?_eq_none :
    e.firstUnsupported? = none ↔ e.Throughout (·.isUnsupported = false) := by
  simp only [firstUnsupported?, List.findSome?_eq_none_iff, reason?_eq_none, Throughout]

theorem isUnsupported_iff : e.isUnsupported ↔ ∃ reason, e = .unsupported reason := by
  cases e <;> simp [isUnsupported]

end Expr

namespace Trace

variable {m : Metamodel} {bindings : List Binding} {t : Trace}

/-- The external calls of a trace start with the one that was recorded first. -/
theorem externalCalls_of_mem {f : ExternalFunction} {arguments : List Nat}
    (h : Op.call (.external f) arguments ∈ t.ops) :
    ∃ before g others after, t.ops = before ++ .call (.external g) others :: after ∧
      (∀ op ∈ before, op.external? = none) ∧
      t.externalCalls.head? = some (before.length, g) := by
  have any : (t.ops.find? (·.external?.isSome)).isSome := List.find?_isSome.2 ⟨_, h, rfl⟩
  obtain ⟨op, found⟩ := Option.isSome_iff_exists.1 any
  obtain ⟨external, before, after, split, first⟩ := List.find?_eq_some_iff_append.1 found
  obtain ⟨g, hg⟩ := Option.isSome_iff_exists.1 external
  obtain ⟨others, rfl⟩ := Op.external?_eq_some hg
  have first (op : Op) (hop : op ∈ before) : op.external? = none := by simpa using first op hop
  refine ⟨before, g, others, after, split, first, ?_⟩
  rw [externalCalls, split, List.zipIdx_append, List.filterMap_append,
    List.filterMap_eq_nil_iff.2]
  · simp [Op.external?]
  · rintro ⟨op, id⟩ hop
    simp [first op (List.fst_mem_of_mem_zipIdx hop)]

/-- A lambda translates as a whole or not at all: without unsupported parts in what it is given
there are none in what it translates to, and with an external call, whether its result is used or
not, it does not translate and the first call is the reason. -/
theorem queryForm_whole (given : ∀ b, Binding.element b ∈ bindings → b.firstUnsupported? = none) :
    (∀ e, t.queryForm m bindings = .expr e →
      (∃ reason, e = .unsupported reason) ∨ e.firstUnsupported? = none) ∧
    ∀ f arguments, Op.call (.external f) arguments ∈ t.ops →
      ∃ before g others after, t.ops = before ++ .call (.external g) others :: after ∧
        (∀ op ∈ before, op.external? = none) ∧
        t.queryForm m bindings = .expr (.unsupported ("call to external function " ++ g.name)) := by
  refine ⟨fun e form => ?_, fun f arguments called => ?_⟩
  · cases supported : e.isUnsupported with
    | true => exact .inl (Expr.isUnsupported_iff.1 supported)
    | false =>
      have given (b : Expr) (hb : Binding.element b ∈ bindings) :=
        Expr.firstUnsupported?_eq_none.1 (given b hb)
      -- whatever an operation makes is supported, or it makes nothing
      have whole := throughout_of_makes given (fun _ _ _ supported _ _ => supported) form supported
      exact .inr (Expr.firstUnsupported?_eq_none.2 whole)
  · obtain ⟨before, g, others, after, split, first, head⟩ := externalCalls_of_mem called
    obtain ⟨rest, calls⟩ := List.head?_eq_some_iff.1 head
    refine ⟨before, g, others, after, split, first, ?_⟩
    rw [queryForm, calls]
    rfl

def audit : ExternalFunction := ⟨"audit", fun _ => .ok .null⟩

def notify : ExternalFunction := ⟨"notify", fun _ => .ok .null⟩

/-- `fun c => { audit(c.debt); notify(c); c.debt }` -/
def auditedTrace : Trace where
  arity := 1
  ops := [.param 0, .field 0 "debt", .call (.external audit) [1], .call (.external notify) [0]]
  result := 1

theorem queryForm_whole_debtor :
    (∀ b, Binding.element b ∈ [.element (.source 0 "Customer")] → b.firstUnsupported? = none) ∧
    (Expr.binary .add
      (.conditional (.field (.source 0 "Customer") ["vip"] .boolean) (.constant (.int 0))
        (.field (.source 0 "Customer") ["debt"] .numeric))
      (.constant (.int 2))).firstUnsupported? = none ∧
    ∃ before g others after,
      auditedTrace.ops = before ++ .call (.external g) others :: after ∧
      (∀ op ∈ before, op.external? = none) ∧
      auditedTrace.queryForm debtors [.element (.source 0 "Customer")] =
        .expr (.unsupported ("call to external function " ++ g.name)) := by
  have given (b : Expr) (hb : Binding.element b ∈ [.element (.source 0 "Customer")]) :
      b.firstUnsupported? = none := by
    cases List.mem_singleton.1 hb
    rfl
  have called : Op.call (.external audit) [1] ∈ auditedTrace.ops := by
    simp [auditedTrace]
  refine ⟨given, ?_, (queryForm_whole given).2 audit [1] called⟩
  refine ((queryForm_whole (t := debtTrace) (m := debtors) given).1 _ rfl).resolve_left ?_
  rintro ⟨reason, h⟩
  cases h

end Trace
end EntityQuery
