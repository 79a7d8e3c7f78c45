import EntityQuery.Proofs.Libraries.Plain
import EntityQuery.Proofs.Pipeline.Lexing
import EntityQuery.Proofs.Pipeline.Redaction
import EntityQuery.Proofs.Query.Binding
import EntityQuery.Proofs.Value.Key

/-! Fingerprints. The text that the fingerprint of a query is taken of tells all that is sent of the
query: its text, its parameters with their values and its window. It would not tell which float is
not finite, but no such float is the value of a parameter of a pipeline. -/
namespace EntityQuery

theorem Window.toJson_injective {w w' : Window} (h : w.toJson = w'.toJson) : w = w' := by
  obtain ⟨skip, limit⟩ := w
  obtain ⟨skip', limit'⟩ := w'
  cases limit <;> cases limit' <;>
    simp [toJson, Json.ofOption, UInt64.toNat_inj] at h ⊢ <;> exact h

theorem Window.written_toJson (w : Window) : w.toJson.written = w.toJson := by
  obtain ⟨skip, limit⟩ := w
  cases limit <;> rfl

namespace Value

variable {params : List (String × Value)}

theorem entriesToJson_eq_map : entriesToJson params = params.map fun p => (p.1, p.2.toJson) := by
  induction params with
  | nil => rfl
  | cons p ps ih => rw [entriesToJson, ih, List.map_cons]

/-- A value that has a literal is written in full. -/
theorem written_of_literal {v : Value} (literal : (Literal.ofValue? v).isSome) :
    v.toJson.written = v.toJson := by
  cases v with
  | null | bool | int | string => rfl
  | entity | list | tuple => cases literal
  | float x =>
    have finite : Number.isFinite x := by
      by_contra infinite
      rw [Literal.ofValue?, if_neg infinite] at literal
      cases literal
    rw [toJson, Json.tagged, Json.written, Json.writtenFields, Json.writtenFields, Json.written,
      if_pos finite]

theorem writtenFields_of_literals (literals : ∀ p ∈ params, (Literal.ofValue? p.2).isSome) :
    Json.writtenFields (entriesToJson params) = entriesToJson params := by
  induction params with
  | nil => rfl
  | cons p ps ih =>
    obtain ⟨first, others⟩ := List.forall_mem_cons.1 literals
    rw [entriesToJson, Json.writtenFields, written_of_literal first, ih others]

end Value

namespace CompiledQuery

variable {q q' : CompiledQuery}

/-- What the fingerprint is taken of. -/
def fingerprintText [Libraries] (q : CompiledQuery) : String :=
  (fingerprintJson q.text q.params q.window).compact

/-- All parameters are bound to values that have literals. -/
def Literals (q : CompiledQuery) : Prop := ∀ p ∈ q.params, (Literal.ofValue? p.2).isSome

theorem fingerprintJson_eq (text : String) (params : Dictionary Value) (window : Window) :
    fingerprintJson text params window =
      .array [.string text, .object (Value.entriesToJson params), window.toJson] := by
  rw [fingerprintJson, Value.entriesToJson_eq_map]

theorem Literals.written (h : q.Literals) :
    (fingerprintJson q.text q.params q.window).written =
      fingerprintJson q.text q.params q.window := by
  rw [fingerprintJson_eq]
  simp only [Json.written, Json.writtenItems, Value.writtenFields_of_literals h,
    Window.written_toJson]

theorem fingerprintText_eq_iff [Libraries] [Libraries.JsonNumerals] (h : q.Literals)
    (h' : q'.Literals) :
    q.fingerprintText = q'.fingerprintText ↔
      q.text = q'.text ∧ q.params = q'.params ∧ q.window = q'.window := by
  rw [fingerprintText, fingerprintText, Json.compact_eq_iff, h.written, h'.written,
    fingerprintJson_eq, fingerprintJson_eq]
  constructor
  · intro same
    simp only [Json.array.injEq, List.cons.injEq, Json.string.injEq, Json.object.injEq,
      and_true] at same
    obtain ⟨text, params, window⟩ := same
    exact ⟨text, Value.entriesToJson_inj _ _ params, Window.toJson_injective window⟩
  · rintro ⟨text, params, window⟩
    rw [text, params, window]

end CompiledQuery

namespace QueryModel

variable {metamodel : Metamodel} {m : QueryModel} {dialect : Dialect} {q : CompiledQuery}

theorem fingerprint_of_compile [Libraries] (h : m.compile dialect = .ok q) :
    q.fingerprint = Sha256.hexDigest q.fingerprintText := by
  obtain ⟨_, -, h⟩ := bind_ok_iff.1 h
  obtain ⟨params, -, h⟩ := bind_ok_iff.1 h
  obtain rfl := Except.ok.inj h
  rfl

/-- A lambda captures a value as a parameter only if the value has a literal. -/
theorem Grounded.literals [Libraries] (h : m.Grounded metamodel)
    (compiled : m.compile dialect = .ok q) : q.Literals := by
  intro p hp
  obtain ⟨-, collected, -⟩ := compile_ok compiled
  rw [collectParameters_eq collected] at hp
  rcases Dictionary.of_mem_bindAll hp with given | none
  · obtain ⟨e, he, node⟩ := mem_allParameters.1 given
    rcases h.nodes e he _ node with formed | ⟨_, _, _, ⟨⟩⟩
    cases formed with
    | parameter literal => exact literal
  · cases none

end QueryModel

namespace Pipeline

variable {α β : Type} {p p' : Pipeline} {m m' : QueryModel}

theorem Reachable.applyAll (h : Reachable p) (ops : List Operation) : Reachable (p.applyAll ops) := by
  induction ops generalizing p with
  | nil => exact h
  | cons op ops ih =>
    obtain ⟨provider, entity, built⟩ := h
    exact ih ⟨provider, entity, built.tail (.operation op)⟩

/-- The fingerprint of a query is taken of a text that determines the query. However two pipelines
were built and whatever is asked of them: of two queries that they send, in any dialects, the texts
that the fingerprints are taken of are the same exactly if the query texts, the parameters and the
windows are. The values of the parameters have literals. -/
theorem fingerprint_determines [Libraries] [Libraries.JsonNumerals] {t : Terminal α}
    {t' : Terminal β} (h : Reachable p) (h' : Reachable p') (sends : p.Sends t m)
    (sends' : p'.Sends t' m') {dialect dialect' : Dialect}
    {q q' : CompiledQuery} (compiled : m.compile dialect = .ok q)
    (compiled' : m'.compile dialect' = .ok q') :
    q.fingerprint = Sha256.hexDigest q.fingerprintText ∧ q.Literals ∧
    (q.fingerprintText = q'.fingerprintText ↔
      q.text = q'.text ∧ q.params = q'.params ∧ q.window = q'.window) := by
  have literals := (h.grounded_of_sends sends).literals compiled
  have literals' := (h'.grounded_of_sends sends').literals compiled'
  exact ⟨QueryModel.fingerprint_of_compile compiled, literals,
    CompiledQuery.fingerprintText_eq_iff literals literals'⟩

open Libraries.Plain in
/-- Whether rows are skipped at once or in turn makes no difference to the fingerprint, but whether
the limit is an integer or an equal float does. -/
theorem fingerprint_determines_limits :
    ∃ q q' q'',
      (customers.applyAll [.filter (above (.int 1)), .skip 3]).model.compile .jpql = .ok q ∧
      (customers.applyAll [.filter (above (.int 1)), .skip 1, .skip 2]).model.compile .jpql =
        .ok q' ∧
      (customers.applyAll [.filter (above (.float 1)), .skip 3]).model.compile .jpql = .ok q'' ∧
      q.fingerprintText = q'.fingerprintText ∧ q.fingerprintText ≠ q''.fingerprintText := by
  have atOnce : Reachable (customers.applyAll [.filter (above (.int 1)), .skip 3]) :=
    .applyAll ⟨_, _, .refl⟩ _
  have inTurn : Reachable (customers.applyAll [.filter (above (.int 1)), .skip 1, .skip 2]) :=
    .applyAll ⟨_, _, .refl⟩ _
  have float : Reachable (customers.applyAll [.filter (above (.float 1)), .skip 3]) :=
    .applyAll ⟨_, _, .refl⟩ _
  refine ⟨_, _, _, rfl, rfl, rfl, ?_, fun same => ?_⟩
  · exact (fingerprint_determines atOnce inTurn (.own (t := .toList)) (.own (t := .toList))
      rfl rfl).2.2.2 ⟨rfl, rfl, rfl⟩
  · have determined := (fingerprint_determines atOnce float (.own (t := .toList))
      (.own (t := .toList)) rfl rfl).2.2.1 same
    cases determined.2.1

end Pipeline
end EntityQuery
