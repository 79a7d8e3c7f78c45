import EntityQuery.Lambda.Evaluation
import EntityQuery.Expr.Basic

/-! Lambdas without what they capture. Redaction leaves of a captured value its kind only, and
recording a redacted lambda gives the redacted recording: which operations are recorded does not
depend on captured values. -/
namespace EntityQuery

/-- Of a value that can be written its kind is left; integers and floats are numbers alike. -/
def Value.redact : Value → Value
  | bool _ => .bool false
  | int _ => .int 0
  | float x => if Number.isFinite x then .int 0 else .float x
  | string _ => .string ""
  | v => v

mutual

def Term.redact : Term → Term
  | param index => .param index
  | shared index => .shared index
  | const value => .const value
  | captured name value => .captured name value.redact
  | foreign => .foreign
  | field base name => .field base.redact name
  | element base index => .element base.redact index
  | tuple first rest => .tuple first.redact (redactAll rest)
  | branch condition whenTrue whenFalse =>
    .branch condition.redact whenTrue.redact whenFalse.redact
  | binary op left right => .binary op left.redact right.redact
  | unary op operand => .unary op operand.redact
  | apply fn argument => .apply fn argument.redact
  | call f first rest => .call f first.redact (redactAll rest)
  | stream collection => .stream collection.redact
  | streamOf provider entity => .streamOf provider.redact entity

def Term.redactAll : List Term → List Term
  | [] => []
  | t :: ts => t.redact :: redactAll ts

end

/-- Nothing is known of what a sealed lambda captures, so nothing of it is left. -/
def Lambda.redact : Lambda → Lambda
  | traced arity preparation body => .traced arity (preparation.map Term.redact) body.redact
  | sealed _ => .sealed fun _ => .ok .null

def Op.redact : Op → Op
  | capture name value => .capture name value.redact
  | op => op

def Trace.redact (t : Trace) : Trace := { t with ops := t.ops.map Op.redact }

def ClientFunction.redact : ClientFunction → ClientFunction
  | traced t => .traced t.redact
  | sealed _ => .sealed fun _ => .ok .null

def Operand.redact : Operand → Operand
  | captured name value => .captured name value.redact
  | operand => operand

def Recording.redact (r : Recording) : Recording := { r with ops := r.ops.map Op.redact }

def Scope.redact (scope : Scope) : Scope := { scope with shared := scope.shared.map Operand.redact }

namespace Recorder

variable {α β : Type} {f : α → α} {g : β → β} {x x' : Recorder α} {k k' : α → Recorder β}

/-- From a redacted recording the second recorder gives what the first gives, redacted. -/
def Redacts (f : α → α) (x x' : Recorder α) : Prop :=
  ∀ r, x'.run r.redact = (f (x.run r).1, (x.run r).2.redact)

theorem redacts_pure (a : α) : Redacts f (pure a) (pure (f a)) := fun _ => rfl

theorem Redacts.bind (first : Redacts f x x') (next : ∀ a, Redacts g (k a) (k' (f a))) :
    Redacts g (x >>= k) (x' >>= k') := by
  intro r
  have taken := first r
  change (k' (x'.run r.redact).1).run (x'.run r.redact).2 = _
  rw [taken]
  exact next (x.run r).1 (x.run r).2

theorem Redacts.discard (h : Redacts f x x') :
    Redacts id (Functor.discard x) (Functor.discard x') := by
  intro r
  have taken := h r
  change ((), (x'.run r.redact).2) = ((), (x.run r).2.redact)
  rw [taken]

theorem redacts_push (op : Op) : Redacts id (push op) (push op.redact) := by
  intro r
  simp [push, Recording.redact, StateT.run]

theorem redacts_lift (operand : Operand) : Redacts id (lift operand) (lift operand.redact) := by
  cases operand with
  | handle id => exact redacts_pure id
  | foreign =>
    have leak : Redacts id (modify fun r : Recording => { r with leaked := true })
        (modify fun r : Recording => { r with leaked := true }) := fun _ => rfl
    exact leak.bind fun _ => redacts_push (.const .null)
  | const value => exact redacts_push (.const value)
  | captured name value => exact redacts_push (.capture name value)

theorem redacts_record (op : Op) : Redacts Operand.redact (record op) (record op.redact) :=
  (redacts_push op).bind fun id => redacts_pure (Operand.handle id)

theorem redacts_onHandle {k k' : Nat → Recorder Operand} (base : Operand)
    (next : ∀ id, Redacts Operand.redact (k id) (k' id)) :
    Redacts Operand.redact (onHandle base k) (onHandle base.redact k') := by
  have own := (redacts_lift base).bind next
  cases base with
  | foreign => exact redacts_pure Operand.foreign
  | handle id => exact own
  | const value => exact own
  | captured name value => exact own

theorem redacts_mapM_lift (operands : List Operand) :
    Redacts id (operands.mapM lift) ((operands.map Operand.redact).mapM lift) := by
  induction operands with
  | nil => exact redacts_pure []
  | cons operand operands ih =>
    rw [List.map_cons, List.mapM_cons, List.mapM_cons]
    exact (redacts_lift operand).bind fun id => ih.bind fun ids => redacts_pure (id :: ids)

end Recorder

/-- Which function is called does not depend on the values of its arguments. -/
theorem calleeFor_redact (f : ExternalFunction) (rest : List Operand) :
    calleeFor f (rest.map Operand.redact) = calleeFor f rest := by
  cases rest with
  | nil => rfl
  | cons first rest =>
    unfold calleeFor
    cases ScalarFn.ofName? f.name <;> rfl

namespace Term

open Recorder

mutual

/-- Recording a redacted term gives the redacted recording of the term. -/
theorem redacts_record (scope : Scope) :
    (t : Term) → Redacts Operand.redact (t.record scope) (t.redact.record scope.redact)
  | param index => by
    have same : (if index < scope.arity then Operand.handle index else .const .null).redact =
        if index < scope.arity then Operand.handle index else .const .null := by
      split <;> rfl
    have read := redacts_pure (f := Operand.redact)
      (if index < scope.arity then Operand.handle index else .const .null)
    rwa [same] at read
  | shared index => by
    have same : (scope.shared[index]?.getD (.const .null)).redact =
        (scope.shared.map Operand.redact)[index]?.getD (.const .null) := by
      rw [List.getElem?_map]
      cases scope.shared[index]? <;> rfl
    have read := redacts_pure (f := Operand.redact) (scope.shared[index]?.getD (.const .null))
    rwa [same] at read
  | const value => redacts_pure (Operand.const value)
  | captured name value => redacts_pure (Operand.captured name value)
  | foreign => redacts_pure Operand.foreign
  | field base name =>
    (redacts_record scope base).bind fun b => redacts_onHandle b fun id =>
      Recorder.redacts_record (.field id name)
  | element base index =>
    (redacts_record scope base).bind fun b => redacts_onHandle b fun id =>
      Recorder.redacts_record (.element id index)
  | tuple first rest =>
    (redacts_record scope first).bind fun a => (redacts_recordAll scope rest).bind fun others =>
      redacts_onHandle a fun id => (redacts_mapM_lift others).bind fun ids =>
        Recorder.redacts_record (.tuple (id :: ids))
  | branch condition whenTrue whenFalse =>
    (redacts_record scope condition).bind fun c => (redacts_record scope whenTrue).bind fun a =>
      (redacts_record scope whenFalse).bind fun b => redacts_onHandle c fun c =>
        (redacts_lift a).bind fun a => (redacts_lift b).bind fun b =>
          Recorder.redacts_record (.branch c a b)
  | binary op left right =>
    (redacts_record scope left).bind fun a => (redacts_record scope right).bind fun b =>
      redacts_onHandle a fun a => (redacts_lift b).bind fun b =>
        Recorder.redacts_record (.binary op a b)
  | unary op operand =>
    (redacts_record scope operand).bind fun a => redacts_onHandle a fun a =>
      Recorder.redacts_record (.unary op a)
  | apply fn argument =>
    (redacts_record scope argument).bind fun a => redacts_onHandle a fun a =>
      Recorder.redacts_record (.call (.known fn) [a])
  | call f first rest =>
    (redacts_record scope first).bind fun a => (redacts_recordAll scope rest).bind fun others => by
      rw [calleeFor_redact]
      exact redacts_onHandle a fun id => (redacts_mapM_lift others).bind fun ids =>
        Recorder.redacts_record (.call (calleeFor f others) (id :: ids))
  | stream collection =>
    (redacts_record scope collection).bind fun a => redacts_onHandle a fun a =>
      Recorder.redacts_record (.streamFrom a)
  | streamOf provider entity =>
    (redacts_record scope provider).bind fun a => redacts_onHandle a fun a =>
      Recorder.redacts_record (.streamEntity a entity)

theorem redacts_recordAll (scope : Scope) : (ts : List Term) →
    Redacts (List.map Operand.redact) (recordAll scope ts) (recordAll scope.redact (redactAll ts))
  | [] => redacts_pure []
  | t :: ts =>
    (redacts_record scope t).bind fun first => (redacts_recordAll scope ts).bind fun rest =>
      redacts_pure (first :: rest)

end

end Term

namespace Lambda

open Recorder

theorem redacts_recordShared (arity : Nat) (shared : List Operand) (preparation : List Term) :
    Redacts (List.map Operand.redact) (recordShared arity shared preparation)
      (recordShared arity (shared.map Operand.redact) (preparation.map Term.redact)) := by
  induction preparation generalizing shared with
  | nil => exact redacts_pure shared
  | cons t ts ih =>
    refine (Term.redacts_record ⟨arity, shared⟩ t).bind fun operand => ?_
    have longer := ih (shared ++ [operand])
    rwa [List.map_append] at longer

theorem redacts_recordBody (arity : Nat) (preparation : List Term) (body : Term) :
    Redacts id (recordBody arity preparation body)
      (recordBody arity (preparation.map Term.redact) body.redact) := by
  have parameters (indices : List Nat) :
      Redacts id (indices.forM fun index => discard (push (.param index)))
        (indices.forM fun index => discard (push (.param index))) := by
    induction indices with
    | nil => exact redacts_pure ()
    | cons index indices ih =>
      exact (redacts_push (.param index)).discard.bind fun _ => ih
  exact (parameters (List.range arity)).bind fun _ =>
    (redacts_recordShared arity [] preparation).bind fun shared =>
      (Term.redacts_record ⟨arity, shared⟩ body).bind redacts_lift

variable (f : Lambda)

@[simp] theorem arity_redact : f.redact.arity = f.arity := by
  cases f <;> rfl

@[simp] theorem isSealed_redact : f.redact.isSealed = f.isSealed := by
  cases f <;> rfl

/-- A redacted lambda has the redacted trace, or none for the same reason. -/
theorem extract_redact : f.redact.extract = f.extract.map Trace.redact := by
  cases f with
  | sealed run => rfl
  | traced arity preparation body =>
    have recorded := redacts_recordBody arity preparation body {}
    change (recordBody arity (preparation.map Term.redact) body.redact).run {} = _ at recorded
    rw [redact, extract, extract, recorded]
    generalize (recordBody arity preparation body).run {} = found
    obtain ⟨result, ops, leaked⟩ := found
    cases leaked <;> rfl

theorem extractWithArity_redact (expected : Nat) :
    f.redact.extractWithArity expected = (f.extractWithArity expected).map Trace.redact := by
  unfold extractWithArity
  rw [arity_redact]
  split
  · exact f.extract_redact
  · rfl

theorem client_redact : f.redact.client = f.client.map ClientFunction.redact := by
  cases f with
  | sealed run => rfl
  | traced arity preparation body =>
    have extracted := (traced arity preparation body).extract_redact
    rw [redact] at extracted ⊢
    rw [client, client, extracted]
    · cases (traced arity preparation body).extract <;> rfl
    · rintro _ ⟨⟩
    · rintro _ ⟨⟩

end Lambda
end EntityQuery
