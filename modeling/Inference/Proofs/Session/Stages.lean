import Inference.Proofs.Session.Coherence
import Inference.Proofs.Session.Retrying
import Mathlib.Data.List.Induction

set_option autoImplicit false
set_option relaxedAutoImplicit false

/-!
# Stages of a session

A session is configuring, ready or freed. Some operations look at the stage, others at the network
that the session holds as well; in a session that a host can get, the stage alone decides which
operations are allowed. An operation that is not allowed is refused with the stage, and changes
nothing. A loading that succeeds leads from configuring to ready, and freeing leads to freed, which
is never left; nothing else moves a session. What a network was bound to stays as long as the
session is ready.

## Main definitions

* `Action.operation?`, `Stage.allows` — what an action asks for, and the stages that allow it.
* `Moves` — how the stage goes on with an action.
* `Question.isSettled` — the questions whose answers binding settles.
* `Session.Staged` — a session that keeps to its stage.

## Main results

* `Session.perform_of_not_allowed`, `Session.not_refused_of_allowed` — refusals.
* `Session.moves_perform` — the moves.
* `Session.settled_after` — what stays while a session is ready.
* `Session.staged_after` — a session that was new keeps to its stage, whatever the host does.
-/

namespace Inference

variable {σ : Type}

/-! ## Operations -/

/-- What a question asks for. The timings can be asked for at every stage. -/
def Question.operation? : Question → Option Operation
  | .count side | .argument side _ | .elementCount side _ | .byteSize side _ => some (.query side)
  | .contents side _ => some (.access side)
  | .singles side _ => some (Session.viewOperation side)
  | .functionCount | .bindingSource _ => some .queryFunctions
  | .metrics => none

/-- What an action asks for. -/
def Action.operation? : Action σ → Option Operation
  | .register _ _ => some .register
  | .load _ _ => some .load
  | .forward _ => some .forward
  | .write side _ _ _ => some (.access side)
  | .writeSingles _ _ => some (.access .input)
  | .ask question => question.operation?
  | .free => some .free

/-- Whether an operation is allowed at a stage. -/
def Stage.allows (stage : Stage) : Operation → Bool
  | .register | .load => stage = .configuring
  | .free => stage ≠ .freed
  | .forward | .query _ | .access _ | .queryFunctions => stage = .ready

/-- The fault of a result. -/
def faultOf? {α : Type} : Except SessionFault α → Option SessionFault
  | .ok _ => none
  | .error fault => some fault

/-- The fault that a host is told. -/
def Answer.fault? : Answer → Option SessionFault
  | .done result => faultOf? result
  | .number result => faultOf? result
  | .variable result => faultOf? result
  | .bytes result => faultOf? result
  | .singles result => faultOf? result
  | .source result => faultOf? result
  | .metrics _ => none

/-- A question that asks for an operation is allowed when the session is ready. -/
lemma allows_of_question {question : Question} {operation : Operation}
    (h : question.operation? = some operation) (stage : Stage) :
    stage.allows operation = decide (stage = .ready) := by
  cases question with
  | metrics => cases h
  | singles side index => cases side <;> cases h <;> rfl
  | _ => cases h; rfl

/-! ## Refusals -/

namespace Session

/-- A result whose fault, if there is one, does not blame the stage of the session. -/
def Admitted {α : Type} (result : Except SessionFault α) : Prop :=
  ∀ operation stage, faultOf? result ≠ some (.invalidState operation stage)

section

variable {α β : Type}

/-- A value blames nothing. -/
lemma admitted_ok (value : α) : Admitted (.ok value : Except SessionFault α) := by
  intro operation stage
  simp [faultOf?]

/-- Any other fault does not blame the stage. -/
lemma admitted_error {fault : SessionFault}
    (h : ∀ operation stage, fault ≠ .invalidState operation stage) :
    Admitted (.error fault : Except SessionFault α) := by
  intro operation stage
  simpa [faultOf?] using h operation stage

/-- One step after another blames the stage only if one of them does. -/
lemma Admitted.bind {result : Except SessionFault α} (h : Admitted result)
    {next : α → Except SessionFault β} (hnext : ∀ value, Admitted (next value)) :
    Admitted (result >>= next) := by
  cases result with
  | ok value => exact hnext value
  | error fault => exact h

/-- A result that is transformed blames what the result blames. -/
lemma Admitted.map {result : Except SessionFault α} (h : Admitted result) (f : α → β) :
    Admitted (result.map f) := by
  cases result with
  | ok value => exact admitted_ok (f value)
  | error fault => exact h

/-- A missing value blames what it is said to. -/
lemma admitted_orFault (value : Option α) {fault : SessionFault}
    (h : ∀ operation stage, fault ≠ .invalidState operation stage) :
    Admitted (orFault value fault) := by
  cases value with
  | none => exact admitted_error h
  | some value => exact admitted_ok value

end

variable {session : Session σ}

/-- A session that is not ready has no bound network to give. -/
lemma bound_of_not_ready (h : session.stage ≠ .ready) (operation : Operation) :
    session.bound operation = .error (.invalidState operation session.stage) := by
  rw [Session.bound, ready?_of_stage_ne h]
  rfl

/-- A question is refused unless the session is ready. -/
lemma fault?_answer_of_not_ready (h : session.stage ≠ .ready) {question : Question}
    {operation : Operation} (hoperation : question.operation? = some operation) :
    (session.answer question).fault? = some (.invalidState operation session.stage) := by
  cases question with
  | metrics => cases hoperation
  | _ =>
    obtain rfl := Option.some.inj hoperation
    simp only [answer, count, elementCount, byteSize, argument, read, readSingles, functionCount,
      bindingSource, bound_of_not_ready h]
    rfl

/-- A session that is ready has a bound network to give. -/
lemma admitted_bound {bound : Bound σ} (h : session.ready? = some bound) (operation : Operation) :
    Admitted (session.bound operation) := by
  rw [bound_eq_ok_iff.mpr h]
  exact admitted_ok bound

/-- An index that no input or output has does not blame the stage. -/
lemma admitted_argument (bound : Bound σ) (side : Side) (index : Nat) :
    Admitted (bound.argument side index) :=
  admitted_orFault _ (by simp)

/-- Contents that are not there do not blame the stage. -/
lemma admitted_region (bound : Bound σ) (v : Variable) : Admitted (bound.region v) :=
  admitted_orFault _ (by simp)

/-- Contents that are no float values do not blame the stage. -/
lemma admitted_singles (bound : Bound σ) (v : Variable) : Admitted (bound.singles v) := by
  unfold Bound.singles
  by_cases hfloat : v.elementType ≠ .float
  · rw [if_pos hfloat]
    exact admitted_error (by simp)
  · rw [if_neg hfloat]
    exact (admitted_region bound v).bind fun _ => admitted_orFault _ (by simp)

/-- The float values of an input or output are given by a session that is ready. -/
lemma admitted_readSingles {bound : Bound σ} (h : session.ready? = some bound) (side : Side)
    (index : Nat) :
    Admitted (session.readSingles side index) :=
  (admitted_bound h _).bind fun bound =>
    (admitted_argument bound side index).bind fun v => admitted_singles bound v

/-- A session that is ready does not refuse to write. -/
lemma admitted_write {bound : Bound σ} (h : session.ready? = some bound) (side : Side)
    (index offset : Nat) (bytes : Bytes) : Admitted (session.write side index offset bytes) :=
  (admitted_bound h _).bind fun bound =>
    (admitted_argument bound side index).bind fun v =>
      (admitted_region bound v).bind fun _ => admitted_ok _

/-- A question is not refused if the session is ready. -/
lemma admitted_answer {bound : Bound σ} (h : session.ready? = some bound) (question : Question) :
    ∀ operation stage,
      (session.answer question).fault? ≠ some (.invalidState operation stage) := by
  have hargument (side : Side) (index : Nat) : Admitted (session.argument side index) :=
    (admitted_bound h _).bind fun bound => admitted_argument bound side index
  cases question with
  | count side => exact (admitted_bound h _).bind fun _ => admitted_ok _
  | argument side index => exact hargument side index
  | elementCount side index => exact (hargument side index).map _
  | byteSize side index => exact (hargument side index).map _
  | contents side index =>
    exact (admitted_bound h _).bind fun bound =>
      (admitted_argument bound side index).bind fun v => admitted_region bound v
  | singles side index => exact admitted_readSingles h side index
  | functionCount => exact (admitted_bound h _).bind fun _ => admitted_ok _
  | bindingSource index =>
    exact (admitted_bound h _).bind fun _ =>
      (admitted_orFault _ (by simp)).bind fun _ => admitted_ok _
  | metrics => simp [answer, Answer.fault?]

/-- **Refusals**: an action that the stage does not allow is refused with the stage, and changes
nothing. -/
theorem perform_of_not_allowed {action : Action σ} {operation : Operation}
    (hoperation : action.operation? = some operation)
    (h : session.stage.allows operation = false) :
    (session.perform action).answer.fault? = some (.invalidState operation session.stage) ∧
      (session.perform action).session = session ∧ (session.perform action).journal = [] := by
  have hready : session.stage ≠ .ready → ∀ side index offset bytes,
      session.write side index offset bytes =
        .error (.invalidState (.access side) session.stage) := by
    intro hstage side index offset bytes
    rw [Session.write, bound_of_not_ready hstage]
    rfl
  cases action with
  | register op resolver =>
    obtain rfl := Option.some.inj hoperation
    have hstage : session.stage ≠ .configuring := by simpa [Stage.allows] using h
    rw [perform, Session.register]
    split
    next hconfiguring => exact absurd hconfiguring hstage
    next => exact ⟨rfl, rfl, rfl⟩
  | load loading descriptor =>
    obtain rfl := Option.some.inj hoperation
    have hstage : session.stage ≠ .configuring := by simpa [Stage.allows] using h
    rw [perform, Session.load]
    split
    next hconfiguring => exact absurd hconfiguring hstage
    next => exact ⟨rfl, rfl, rfl⟩
  | forward readings =>
    obtain rfl := Option.some.inj hoperation
    have hstage : session.stage ≠ .ready := by simpa [Stage.allows] using h
    rw [perform, forward_of_not_ready (ready?_of_stage_ne hstage)]
    exact ⟨rfl, rfl, rfl⟩
  | write side index offset bytes =>
    obtain rfl := Option.some.inj hoperation
    have hstage : session.stage ≠ .ready := by simpa [Stage.allows] using h
    rw [perform, hready hstage]
    exact ⟨rfl, rfl, rfl⟩
  | writeSingles index values =>
    obtain rfl := Option.some.inj hoperation
    have hstage : session.stage ≠ .ready := by simpa [Stage.allows] using h
    rw [perform, writeInputSingles, readSingles, bound_of_not_ready hstage]
    exact ⟨rfl, rfl, rfl⟩
  | ask question =>
    have hstage : session.stage ≠ .ready := by
      rw [allows_of_question hoperation] at h
      exact of_decide_eq_false h
    exact ⟨fault?_answer_of_not_ready hstage hoperation, rfl, rfl⟩
  | free =>
    obtain rfl := Option.some.inj hoperation
    have hstage : session.stage = .freed := by simpa [Stage.allows] using h
    rw [perform, Session.free]
    split
    next => exact ⟨rfl, rfl, rfl⟩
    next hother => exact absurd hstage hother

/-- Loading does not blame the stage of a session that is configuring. -/
lemma admitted_load (h : session.stage = .configuring) (loading : Nat) (descriptor : Bytes) :
    Admitted (session.load loading descriptor).result := by
  have hloads := session.loads_load loading descriptor
  generalize session.load loading descriptor = reply at hloads ⊢
  cases hloads with
  | refused hstage => exact absurd h hstage
  | unsettled | malformed | oversized => exact admitted_error (by simp)
  | @unbound _ _ _ _ _ _ _ fault =>
    cases fault <;> exact admitted_error (by simp [SessionFault.ofBinding])
  | loaded => exact admitted_ok ()

/-- A pass does not blame the stage of a session that is ready. -/
lemma admitted_forward {bound : Bound σ} (h : session.ready? = some bound)
    (readings : Nat → Nat) : Admitted (session.forward tick readings).1.result := by
  rw [forward_of_ready h]
  cases bound.walk.failure with
  | none => exact admitted_ok ()
  | some failure => exact admitted_error (by simp)

/-- The host is told the fault of an operation that gives a new session. -/
lemma fault?_updated (session : Session σ) (result : Except SessionFault (Session σ)) :
    (session.updated result).answer.fault? = faultOf? result := by
  cases result <;> rfl

/-- An action that the stage allows is not refused with the stage. -/
theorem not_refused_of_allowed (hcoherent : session.Coherent) {action : Action σ}
    {operation : Operation} (hoperation : action.operation? = some operation)
    (h : session.stage.allows operation = true) (other : Operation) (stage : Stage) :
    (session.perform action).answer.fault? ≠ some (.invalidState other stage) := by
  cases action with
  | register op resolver =>
    obtain rfl := Option.some.inj hoperation
    have hstage : session.stage = .configuring := of_decide_eq_true h
    rw [perform, fault?_updated, Session.register, hstage]
    exact admitted_ok _ other stage
  | load loading descriptor =>
    obtain rfl := Option.some.inj hoperation
    exact admitted_load (of_decide_eq_true h) loading descriptor other stage
  | forward readings =>
    obtain rfl := Option.some.inj hoperation
    obtain ⟨bound, hready⟩ := hcoherent.exists_ready (of_decide_eq_true h)
    exact admitted_forward hready readings other stage
  | write side index offset bytes =>
    obtain rfl := Option.some.inj hoperation
    obtain ⟨bound, hready⟩ := hcoherent.exists_ready (of_decide_eq_true h)
    rw [perform, fault?_updated]
    exact admitted_write hready side index offset bytes other stage
  | writeSingles index values =>
    obtain rfl := Option.some.inj hoperation
    obtain ⟨bound, hready⟩ := hcoherent.exists_ready (of_decide_eq_true h)
    rw [perform, fault?_updated]
    exact (admitted_readSingles hready .input index).bind
      (fun _ => admitted_write hready .input index 0 _) other stage
  | ask question =>
    rw [allows_of_question hoperation] at h
    obtain ⟨bound, hready⟩ := hcoherent.exists_ready (of_decide_eq_true h)
    exact admitted_answer hready question other stage
  | free =>
    rw [perform, Session.free]
    split
    next hstage =>
      obtain rfl := Option.some.inj hoperation
      simp [Stage.allows, hstage] at h
    next => exact admitted_ok () other stage

end Session

/-! ## Moves -/

/-- How the stage goes on with an action, which succeeds or fails. -/
inductive Moves : Action σ → (succeeds : Bool) → Stage → Stage → Prop where
  | loaded (loading : Nat) (descriptor : Bytes) :
      Moves (.load loading descriptor) true .configuring .ready
  | freed {stage : Stage} (hstage : stage ≠ .freed) : Moves .free true stage .freed
  /-- An action that fails does not move the session. -/
  | failed (action : Action σ) (stage : Stage) : Moves action false stage stage
  /-- Nor does any action but these two. -/
  | stays {action : Action σ} (hload : ∀ loading descriptor, action ≠ .load loading descriptor)
      (hfree : action ≠ .free) (stage : Stage) : Moves action true stage stage

namespace Session

variable {session : Session σ}

/-- An action that neither loads nor frees makes the move of a session that stays at its stage. -/
lemma moves_of_stage_eq {action : Action σ}
    (hload : ∀ loading descriptor, action ≠ .load loading descriptor) (hfree : action ≠ .free)
    {next : Session σ} (hstage : next.stage = session.stage)
    (succeeds : Bool) : Moves action succeeds session.stage next.stage := by
  rw [hstage]
  cases succeeds with
  | false => exact .failed action _
  | true => exact .stays hload hfree _

/-- Writing does not move a session. -/
lemma stage_updated_write (session : Session σ) (side : Side) (index offset : Nat)
    (bytes : Bytes) :
    (session.updated (session.write side index offset bytes)).session.stage = session.stage := by
  cases hwrite : session.write side index offset bytes with
  | error fault => rfl
  | ok next =>
    obtain ⟨bound, v, -, rfl⟩ := exists_of_write hwrite
    rfl

/-- **Moves**: every action makes one of the moves of a session. -/
theorem moves_perform (session : Session σ) (action : Action σ) :
    Moves action (session.perform action).answer.fault?.isNone session.stage
      (session.perform action).session.stage := by
  cases action with
  | register op resolver =>
    apply moves_of_stage_eq (by simp) (by simp)
    rw [perform, Session.register]
    split <;> rfl
  | load loading descriptor =>
    have hloads := session.loads_load loading descriptor
    rw [perform, replied]
    generalize session.load loading descriptor = reply at hloads ⊢
    cases hloads with
    | loaded hstage =>
      rw [hstage]
      exact .loaded loading descriptor
    | _ => exact .failed _ _
  | forward readings =>
    apply moves_of_stage_eq (by simp) (by simp)
    rw [perform, replied]
    cases hready : session.ready? with
    | none => rw [forward_of_not_ready hready]
    | some bound => rw [forward_of_ready hready]
  | write side index offset bytes =>
    exact moves_of_stage_eq (by simp) (by simp)
      (session.stage_updated_write side index offset bytes) _
  | writeSingles index values =>
    apply moves_of_stage_eq (by simp) (by simp)
    rw [perform, writeInputSingles]
    cases session.readSingles .input index with
    | error fault => rfl
    | ok _ => exact session.stage_updated_write .input index 0 _
  | ask question => exact moves_of_stage_eq (by simp) (by simp) rfl _
  | free =>
    rw [perform, Session.free]
    split
    next => exact .failed _ _
    next hstage => exact .freed hstage

/-- A session that was freed stays as it is, and nothing happens to it. -/
lemma perform_of_freed (h : session.stage = .freed) (action : Action σ) :
    (session.perform action).session = session ∧ (session.perform action).journal = [] := by
  cases hoperation : action.operation? with
  | none =>
    cases action with
    | ask question => exact ⟨rfl, rfl⟩
    | _ => cases hoperation
  | some operation =>
    have hrefused : session.stage.allows operation = false := by
      rw [h]
      cases operation <;> rfl
    exact (perform_of_not_allowed hoperation hrefused).2

/-- **The end**: a session that was freed is never anything else again. -/
theorem after_of_freed (h : session.stage = .freed) (actions : List (Action σ)) :
    session.after actions = session ∧ session.events actions = [] := by
  induction actions with
  | nil => exact ⟨rfl, rfl⟩
  | cons action actions ih =>
    obtain ⟨hsession, hjournal⟩ := perform_of_freed h action
    rw [after, events, hsession, hjournal]
    exact ih

end Session

/-- A session that an action leaves ready was ready, or was just loaded. -/
lemma Moves.of_ready {action : Action σ} {succeeds : Bool} {before : Stage}
    (h : Moves action succeeds before .ready) :
    before = .ready ∨
      succeeds = true ∧ ∃ loading descriptor, action = .load loading descriptor := by
  cases h with
  | loaded loading descriptor => exact .inr ⟨rfl, loading, descriptor, rfl⟩
  | failed | stays => exact .inl rfl

/-- A session that was ready is ready or freed after an action. -/
lemma Moves.ready_or_freed {action : Action σ} {succeeds : Bool} {next : Stage}
    (h : Moves action succeeds .ready next) : next = .ready ∨ next = .freed := by
  cases h with
  | freed => exact .inr rfl
  | failed | stays => exact .inl rfl

/-! ## What stays while a session is ready -/

/-- The questions whose answers binding settles: all but those for contents and timings. -/
def Question.isSettled : Question → Bool
  | .contents _ _ | .singles _ _ | .metrics => false
  | _ => true

/-- A bound network with the inputs, outputs and functions of another one, private states apart. -/
structure Bound.SameBinding (bound other : Bound σ) : Prop where
  inputs_eq : other.inputs = bound.inputs
  outputs_eq : other.outputs = bound.outputs
  functions_eq : (other.functions.map fun function => function.withState none) =
    bound.functions.map fun function => function.withState none

namespace Bound.SameBinding

variable {bound other : Bound σ}

/-- Both have the same variables on each side. -/
lemma arguments_eq (h : bound.SameBinding other) (side : Side) :
    other.arguments side = bound.arguments side := by
  cases side with
  | input => exact h.inputs_eq
  | output => exact h.outputs_eq

/-- Both have as many functions. -/
lemma length_functions (h : bound.SameBinding other) :
    other.functions.length = bound.functions.length := by
  simpa using congrArg List.length h.functions_eq

/-- Both have the functions bound to the same implementations. -/
lemma map_source_functions (h : bound.SameBinding other) :
    other.functions.map BoundNode.source = bound.functions.map BoundNode.source := by
  have hsources := congrArg (List.map BoundNode.source) h.functions_eq
  rwa [List.map_map, List.map_map] at hsources

end Bound.SameBinding

/-- An effect that leaves a session ready that was ready keeps what was bound, and the dispatch
table. -/
lemma Effect.sameBinding {session next : Session σ} {journal : List (Event σ)}
    {bound other : Bound σ} (heffect : Effect session next journal)
    (hheld : session.ready? = some bound) (hnext : next.ready? = some other) :
    bound.SameBinding other ∧ next.dispatch = session.dispatch := by
  cases heffect with
  | unchanged | undone =>
    obtain rfl := Option.some.inj (hheld.symm.trans hnext)
    exact ⟨⟨rfl, rfl, rfl⟩, rfl⟩
  | registered op resolver hstage | loaded loading descriptor network budget arena hstage =>
    rw [Session.stage_of_ready hheld] at hstage
    cases hstage
  | passed before readings hready =>
    obtain rfl := Option.some.inj (hheld.symm.trans hready)
    obtain rfl := Option.some.inj ((Session.ready?_holding hready _ _).symm.trans hnext)
    exact ⟨⟨rfl, rfl, withState_walk bound.functions bound.arena.split⟩, rfl⟩
  | written before v offset bytes hready =>
    obtain rfl := Option.some.inj (hheld.symm.trans hready)
    obtain rfl := Option.some.inj ((Session.ready?_holding hready _ _).symm.trans hnext)
    exact ⟨⟨rfl, rfl, rfl⟩, rfl⟩
  | freed => simp [Session.ready?] at hnext

namespace Session

variable {session other : Session σ}

/-- Sides have as many variables as the bound network says. -/
lemma count_of_ready {bound : Bound σ} (h : session.ready? = some bound) (side : Side) :
    session.count side = .ok (bound.arguments side).length := by
  rw [count, bound_eq_ok_iff.mpr h]
  rfl

/-- The variables are those of the bound network. -/
lemma argument_of_ready {bound : Bound σ} (h : session.ready? = some bound) (side : Side)
    (index : Nat) : session.argument side index = bound.argument side index := by
  rw [argument, bound_eq_ok_iff.mpr h]
  rfl

/-- There are as many functions as the bound network has. -/
lemma functionCount_of_ready {bound : Bound σ} (h : session.ready? = some bound) :
    session.functionCount = .ok bound.functions.length := by
  rw [functionCount, bound_eq_ok_iff.mpr h]
  rfl

/-- The implementations are those that the functions were bound to. -/
lemma bindingSource_of_ready {bound : Bound σ} (h : session.ready? = some bound) (index : Nat) :
    session.bindingSource index = orFault (bound.functions.map BoundNode.source)[index]?
      (.indexOutOfRange .functions index bound.functions.length) := by
  have hsource (found : Option (BoundNode σ)) (fault : SessionFault) :
      (orFault found fault >>= fun function => pure function.source) =
        orFault (found.map BoundNode.source) fault := by
    cases found <;> rfl
  rw [bindingSource, bound_eq_ok_iff.mpr h, List.getElem?_map]
  exact hsource _ _

/-- Sessions with the same binding give the same answers to the questions that it settles. -/
lemma answer_of_sameBinding {bound bound' : Bound σ} (hheld : session.ready? = some bound)
    (hother : other.ready? = some bound') (hsame : bound.SameBinding bound')
    {question : Question} (hsettled : question.isSettled = true) :
    other.answer question = session.answer question := by
  have hargument (side : Side) (index : Nat) :
      other.argument side index = session.argument side index := by
    rw [argument_of_ready hheld, argument_of_ready hother, Bound.argument, Bound.argument,
      hsame.arguments_eq]
  cases question with
  | count side =>
    rw [answer, answer, count_of_ready hheld, count_of_ready hother, hsame.arguments_eq]
  | argument side index => rw [answer, answer, hargument]
  | elementCount side index => rw [answer, answer, elementCount, elementCount, hargument]
  | byteSize side index => rw [answer, answer, byteSize, byteSize, hargument]
  | contents | singles | metrics => cases hsettled
  | functionCount =>
    rw [answer, answer, functionCount_of_ready hheld, functionCount_of_ready hother,
      hsame.length_functions]
  | bindingSource index =>
    rw [answer, answer, bindingSource_of_ready hheld, bindingSource_of_ready hother,
      hsame.map_source_functions, hsame.length_functions]

/-- **Settled answers**: as long as a session is ready, its dispatch table stays, and so do the
answers that binding settles, whatever passes succeed or fail.

**Proof sketch.** Induction on the actions. After the first one the session is ready or freed
(`moves_perform`), and it is not freed because it would stay so (`after_of_freed`). An effect
between two sessions that are ready keeps what was bound (`Effect.sameBinding`). -/
theorem settled_after (hcoherent : session.Coherent) (h : session.stage = .ready)
    (actions : List (Action σ)) (hlast : (session.after actions).stage = .ready) :
    (session.after actions).dispatch = session.dispatch ∧
      ∀ question : Question, question.isSettled = true →
        (session.after actions).answer question = session.answer question := by
  induction actions generalizing session with
  | nil => exact ⟨rfl, fun _ _ => rfl⟩
  | cons action actions ih =>
    have hmoves := session.moves_perform action
    rw [h] at hmoves
    obtain hnext | hfreed := hmoves.ready_or_freed
    · have heffect := session.effect_perform action
      obtain ⟨bound, hheld⟩ := hcoherent.exists_ready h
      obtain ⟨bound', hheld'⟩ := (heffect.coherent hcoherent).exists_ready hnext
      obtain ⟨hsame, hdispatch⟩ := heffect.sameBinding hheld hheld'
      obtain ⟨hlater, hanswers⟩ := ih (heffect.coherent hcoherent) hnext hlast
      refine ⟨hlater.trans hdispatch, ?_⟩
      intro question hsettled
      exact (hanswers question hsettled).trans (answer_of_sameBinding hheld hheld' hsame hsettled)
    · rw [after, (after_of_freed hfreed actions).1, hfreed] at hlast
      cases hlast

end Session

/-! ## Overrides -/

/-- A pass tries no override. -/
lemma tried_not_mem_walk (functions : List (BoundNode σ)) (contents : Contents)
    (function position : Nat) :
    .tried function position ∉ (Engine.walk functions contents).journal := by
  induction functions generalizing contents with
  | nil => exact List.not_mem_nil
  | cons first rest ih =>
    obtain ⟨notes, hjournal⟩ := exists_execute_journal_eq first contents
    have hturn : .tried function position ∉ (first.execute contents).journal := by
      rw [hjournal]
      simp
    cases hresult : (first.execute contents).result with
    | error fault =>
      rw [Engine.walk_cons_error hresult]
      exact hturn
    | ok _ =>
      rw [Engine.walk_cons_ok hresult, List.mem_append, not_or]
      exact ⟨hturn, ih _⟩

/-- Releasing tries no override. -/
lemma tried_not_mem_releaseAll (functions : List (BoundNode σ)) (function position : Nat) :
    .tried function position ∉ BoundNode.releaseAll functions := by
  rw [BoundNode.releaseAll, List.mem_flatMap]
  rintro ⟨released, -, hmem⟩
  unfold BoundNode.release at hmem
  split at hmem <;> simp at hmem

namespace Session

/-- The same holds of giving up a session. -/
lemma tried_not_mem_close (session : Session σ) (function position : Nat) :
    .tried function position ∉ session.close := by
  rw [session.close_eq]
  exact tried_not_mem_releaseAll _ _ _

/-- Overrides are tried only when a descriptor is loaded. -/
theorem load_of_tried {session : Session σ} {action : Action σ} {function position : Nat}
    (h : .tried function position ∈ (session.perform action).journal) :
    ∃ loading descriptor, action = .load loading descriptor := by
  have hupdated (result : Except SessionFault (Session σ)) :
      .tried function position ∉ (session.updated result).journal := by
    cases result <;> exact List.not_mem_nil
  cases action with
  | register op resolver => exact absurd h (hupdated _)
  | load loading descriptor => exact ⟨loading, descriptor, rfl⟩
  | forward readings =>
    rw [perform, replied] at h
    cases hready : session.ready? with
    | none =>
      rw [forward_of_not_ready hready] at h
      cases h
    | some bound =>
      rw [forward_of_ready hready] at h
      exact absurd h (tried_not_mem_walk bound.functions bound.arena.split _ _)
  | write side index offset bytes => exact absurd h (hupdated _)
  | writeSingles index values => exact absurd h (hupdated _)
  | ask question => cases h
  | free =>
    rw [perform, Session.free] at h
    split at h
    · cases h
    · exact absurd h (session.tried_not_mem_close _ _)

/-- What a response shows apart from the dispatch table. -/
structure SameResponse (response other : Response σ) : Prop where
  answer_eq : other.answer = response.answer
  session_eq : other.session = { response.session with dispatch := other.session.dispatch }
  journal_eq : other.journal = response.journal

/-- The dispatch table has no part in what an action gives back, unless a descriptor is loaded. -/
theorem perform_withDispatch (session : Session σ) (dispatch : Dispatch σ) {action : Action σ}
    (hload : ∀ loading descriptor, action ≠ .load loading descriptor) :
    SameResponse (session.perform action)
      (perform { session with dispatch := dispatch } action) := by
  by_cases hregister : ∃ op resolver, action = .register op resolver
  · obtain ⟨op, resolver, rfl⟩ := hregister
    obtain ⟨settings, stage, dispatch', held, latest⟩ := session
    cases stage <;> exact ⟨rfl, rfl, rfl⟩
  · simp only [not_exists] at hregister
    rw [session.perform_withDispatch_eq dispatch hregister hload]
    exact ⟨rfl, rfl, rfl⟩

/-! ## Sessions that were new -/

/-- A network that is bound now was bound by a loading that succeeded, and is served since then.

**Proof sketch.** Induction on the history, from its end. The last action leaves the session ready
only if it was ready before, or if the action loads a descriptor (`Moves.of_ready`). -/
theorem exists_load_of_ready {settings : Settings} {registry : Registry σ}
    {history : List (Action σ)} {bound : Bound σ}
    (h : ((Session.new settings registry).after history).ready? = some bound) :
    ∃ front loading descriptor back network, history = front ++ .load loading descriptor :: back ∧
      (((Session.new settings registry).after front).load loading descriptor).result = .ok () ∧
      Network.decode descriptor = .ok network ∧ bound.Serves network := by
  induction history using List.reverseRecOn generalizing bound with
  | nil => cases h
  | append_singleton actions action ih =>
    rw [after_append, after, after] at h
    set before := (Session.new settings registry).after actions with hbefore
    have hmoves := before.moves_perform action
    rw [stage_of_ready h] at hmoves
    obtain hready | ⟨hsucceeds, loading, descriptor, rfl⟩ := hmoves.of_ready
    · have hcoherent : before.Coherent := coherent_after settings registry actions
      obtain ⟨earlier, hheld⟩ := hcoherent.exists_ready hready
      obtain ⟨front, loading, descriptor, back, network, rfl, hload, hdecode, hserves⟩ := ih hheld
      have hnext := (serves_of_ready hheld hserves).effect (Network.consistent_of_decode hdecode)
        (before.effect_perform action)
      exact ⟨front, loading, descriptor, back ++ [action], network, by simp, hload, hdecode,
        hnext.ready bound h⟩
    · have hload : (before.load loading descriptor).result = .ok () := by
        rw [perform, replied, Answer.fault?] at hsucceeds
        cases hresult : (before.load loading descriptor).result with
        | ok _ => rfl
        | error fault => rw [hresult] at hsucceeds; cases hsucceeds
      obtain ⟨network, first, hdecode, hfirst, hserves⟩ := ready_of_load hload
      obtain rfl := Option.some.inj (hfirst.symm.trans h)
      exact ⟨actions, loading, descriptor, [], network, rfl, hload, hdecode, hserves⟩

/-- A session that keeps to its stage. -/
structure Staged (session : Session σ) : Prop where
  /-- A network is held exactly when the session is ready. -/
  held_iff : session.held.isSome ↔ session.stage = .ready
  /-- Every operation that needs a network gets it exactly then. -/
  bound_iff : ∀ operation bound,
    session.bound operation = .ok bound ↔ session.stage = .ready ∧ session.held = some bound
  /-- Timings are kept only then. -/
  timed : session.lastMetrics?.isSome → session.stage = .ready
  /-- Otherwise there is nothing to release. -/
  unbound : session.stage ≠ .ready → session.functions = [] ∧ session.close = []
  /-- What the stage does not allow is refused with the stage, and changes nothing. -/
  refused : ∀ (action : Action σ) (operation : Operation), action.operation? = some operation →
    session.stage.allows operation = false →
      (session.perform action).answer.fault? = some (.invalidState operation session.stage) ∧
        (session.perform action).session = session ∧ (session.perform action).journal = []
  /-- What it allows is not refused with a stage. -/
  admitted : ∀ (action : Action σ) (operation : Operation), action.operation? = some operation →
    session.stage.allows operation = true → ∀ other stage,
      (session.perform action).answer.fault? ≠ some (.invalidState other stage)
  moves : ∀ action : Action σ, Moves action (session.perform action).answer.fault?.isNone
    session.stage (session.perform action).session.stage
  /-- A session that was freed stays as it is, whatever the host does. -/
  freed : session.stage = .freed → ∀ actions : List (Action σ),
    session.after actions = session ∧ session.events actions = []
  /-- Overrides are tried only when a descriptor is loaded. -/
  tried : ∀ (action : Action σ) (function position : Nat),
    .tried function position ∈ (session.perform action).journal →
      ∃ loading descriptor, action = .load loading descriptor
  /-- Nothing else depends on them, or on the registry. -/
  independent : ∀ (action : Action σ) (dispatch : Dispatch σ),
    (∀ loading descriptor, action ≠ .load loading descriptor) →
      SameResponse (session.perform action) (perform { session with dispatch := dispatch } action)
  /-- As long as the session is ready, the dispatch table stays, and so do the inputs, the outputs,
  the functions and their implementations. -/
  settled : session.stage = .ready → ∀ actions : List (Action σ),
    (session.after actions).stage = .ready →
      (session.after actions).dispatch = session.dispatch ∧
        ∀ question : Question, question.isSettled = true →
          (session.after actions).answer question = session.answer question

/-- **Stages**: whatever the host did with a session since it was new, the session keeps to its
stage; and a network that is bound was bound by a loading that succeeded.

**Proof sketch.** The session is coherent (`coherent_after`), so an operation that looks for the
network finds it where the stage is ready, and the guards of all operations agree
(`perform_of_not_allowed`, `not_refused_of_allowed`). Each action makes a move (`moves_perform`),
and a run of actions a run of moves. -/
theorem staged_after (settings : Settings) (registry : Registry σ) (history : List (Action σ)) :
    ((Session.new settings registry).after history).Staged ∧
      ∀ bound, ((Session.new settings registry).after history).ready? = some bound →
        ∃ front loading descriptor back network,
          history = front ++ .load loading descriptor :: back ∧
          (((Session.new settings registry).after front).load loading descriptor).result =
            .ok () ∧
          Network.decode descriptor = .ok network ∧ bound.Serves network := by
  refine ⟨?_, fun bound => exists_load_of_ready⟩
  have hcoherent := coherent_after settings registry history
  set session := (Session.new settings registry).after history
  exact
    { held_iff := hcoherent.held_iff
      bound_iff := fun operation bound => bound_eq_ok_iff.trans ready?_eq_some_iff
      timed := hcoherent.stage_of_latest
      unbound := fun hstage => ⟨hcoherent.functions_eq_nil hstage,
        close_of_held_eq_none (hcoherent.held_eq_none hstage)⟩
      refused := fun action operation => perform_of_not_allowed
      admitted := fun action operation => not_refused_of_allowed hcoherent
      moves := session.moves_perform
      freed := after_of_freed
      tried := fun action function position => load_of_tried
      independent := fun action dispatch => session.perform_withDispatch dispatch
      settled := settled_after hcoherent }

end Session

end Inference
