import Inference.Proofs.Session.History

set_option autoImplicit false
set_option relaxedAutoImplicit false

/-!
# Changes that leave contents alone

Reading, writing and asking about inputs and outputs look at the stage of a session, at the
variables on both sides of what is bound, and at the store. A change of a session that leaves these
alone, whatever it does to settings, overrides, functions and timings, makes no difference to them.
The dispatch table has a part in registering overrides and in loading descriptors only.

## Main definitions

* `Bound.SameContents` — bound networks with the same inputs and outputs and the same store.
* `Session.LeavesContents` — a change of sessions that leaves stage and contents alone.
* `Question.OfContents` — the questions about inputs, outputs and contents.

## Main results

* `Session.LeavesContents.answer_eq` — such a change makes no difference to what is asked.
* `Session.LeavesContents.write_eq`, `Session.LeavesContents.writeInputSingles_eq` — nor to what is
  written.
* `Session.load_change` — nor to what is loaded, if it also leaves the budget and the bindings
  alone.
* `Session.perform_withDispatch_eq` — the dispatch table has no part in most actions.
-/

namespace Inference

variable {σ : Type}

/-! ## Bound networks -/

/-- Bound networks with the same inputs and outputs and the same store. -/
structure Bound.SameContents (bound other : Bound σ) : Prop where
  inputs_eq : other.inputs = bound.inputs
  outputs_eq : other.outputs = bound.outputs
  arena_eq : other.arena = bound.arena

namespace Bound.SameContents

variable {bound other : Bound σ}

/-- The same variables stand on both sides. -/
lemma arguments_eq (h : bound.SameContents other) (side : Side) :
    other.arguments side = bound.arguments side := by
  cases side with
  | input => exact h.inputs_eq
  | output => exact h.outputs_eq

/-- The same variable is found on a side. -/
lemma argument_eq (h : bound.SameContents other) (side : Side) (index : Nat) :
    other.argument side index = bound.argument side index := by
  rw [Bound.argument, h.arguments_eq, Bound.argument]

/-- A variable has the same contents. -/
lemma region_eq (h : bound.SameContents other) (v : Variable) :
    other.region v = bound.region v := by
  rw [Bound.region, h.arena_eq, Bound.region]

/-- A variable has the same contents as float values. -/
lemma singles_eq (h : bound.SameContents other) (v : Variable) :
    other.singles v = bound.singles v := by
  simp only [Bound.singles, h.region_eq]

end Bound.SameContents

/-! ## Changes -/

/-- Whether a question is about inputs, outputs or contents. -/
def Question.OfContents : Question → Prop
  | .functionCount => False
  | .bindingSource _ => False
  | .metrics => False
  | _ => True

namespace Session

/-- A change of sessions that leaves the stage alone, and the inputs, the outputs and the store of
what is bound. The store can be changed before or after. -/
structure LeavesContents (change : Session σ → Session σ) : Prop where
  stage_eq : ∀ session, (change session).stage = session.stage
  ready : ∀ (session : Session σ) (bound : Bound σ), session.ready? = some bound →
    ∃ other, (change session).ready? = some other ∧ bound.SameContents other ∧
      ∀ arena, change { session with held := some { bound with arena := arena } } =
        { change session with held := some { other with arena := arena } }
  not_ready : ∀ session : Session σ, session.ready? = none → (change session).ready? = none

namespace LeavesContents

variable {change : Session σ → Session σ} {α : Type}

/-- What is done with a bound network can be done after the change, if it depends on the contents
only. -/
lemma bind_bound (h : LeavesContents change) (session : Session σ) (operation : Operation)
    {next next' : Bound σ → Except SessionFault α}
    (hnext : ∀ bound other, session.ready? = some bound → bound.SameContents other →
      (∀ arena, change { session with held := some { bound with arena := arena } } =
        { change session with held := some { other with arena := arena } }) →
      next' other = next bound) :
    ((change session).bound operation >>= next') = (session.bound operation >>= next) := by
  rw [Session.bound, Session.bound, refusal, refusal, h.stage_eq]
  cases hheld : session.ready? with
  | some bound =>
    obtain ⟨other, hother, hsame, harena⟩ := h.ready session bound hheld
    rw [hother]
    exact hnext bound other hheld hsame harena
  | none =>
    rw [h.not_ready session hheld]
    rfl

/-- The same variable is found on a side. -/
lemma argument_eq (h : LeavesContents change) (session : Session σ) (side : Side) (index : Nat) :
    (change session).argument side index = session.argument side index :=
  h.bind_bound session _ fun _ _ _ hsame _ => hsame.argument_eq side index

/-- The same float values are read. -/
lemma readSingles_eq (h : LeavesContents change) (session : Session σ) (side : Side)
    (index : Nat) :
    (change session).readSingles side index = session.readSingles side index :=
  h.bind_bound session _ fun _ _ _ hsame _ => by
    simp only [hsame.argument_eq, hsame.singles_eq]

/-- Questions about inputs, outputs and contents have the same answer. -/
theorem answer_eq (h : LeavesContents change) (session : Session σ) {question : Question}
    (hquestion : question.OfContents) :
    (change session).answer question = session.answer question := by
  cases question with
  | count side =>
    exact congrArg Answer.number (h.bind_bound session _ fun _ _ _ hsame _ => by
      rw [hsame.arguments_eq])
  | argument side index => exact congrArg Answer.variable (h.argument_eq session side index)
  | elementCount side index =>
    rw [Session.answer, elementCount, h.argument_eq, ← elementCount, Session.answer]
  | byteSize side index =>
    rw [Session.answer, byteSize, h.argument_eq, ← byteSize, Session.answer]
  | contents side index =>
    exact congrArg Answer.bytes (h.bind_bound session _ fun _ _ _ hsame _ => by
      simp only [hsame.argument_eq, hsame.region_eq])
  | singles side index => exact congrArg Answer.singles (h.readSingles_eq session side index)
  | functionCount | bindingSource | metrics => cases hquestion

/-- Bytes are written the same. -/
theorem write_eq (h : LeavesContents change) (session : Session σ) (side : Side)
    (index offset : Nat) (bytes : Bytes) :
    (change session).write side index offset bytes =
      (session.write side index offset bytes).map change := by
  show _ = change <$> session.write side index offset bytes
  simp only [Session.write, map_bind, map_pure]
  refine h.bind_bound session _ fun bound other _ hsame harena => ?_
  simp only [hsame.argument_eq, hsame.region_eq, hsame.arena_eq, harena]

/-- Float values are written the same. -/
theorem writeInputSingles_eq (h : LeavesContents change) (session : Session σ) (index : Nat)
    (values : List Single) :
    (change session).writeInputSingles index values =
      (session.writeInputSingles index values).map change := by
  rw [writeInputSingles, writeInputSingles, h.readSingles_eq]
  cases session.readSingles .input index with
  | error fault => rfl
  | ok found => exact h.write_eq session .input index 0 _

end LeavesContents

/-! ## Loading -/

/-- The response of an operation that gives a session, when a session and the result are changed
alike. -/
lemma updated_change (change : Session σ → Session σ) (session : Session σ)
    (result : Except SessionFault (Session σ)) :
    (change session).updated (result.map change) =
      { session.updated result with session := change (session.updated result).session } := by
  cases result <;> rfl

/-- Loading a descriptor comes to the same before and after a change that leaves alone what loading
looks at: the stage, the network that is held, the budget, and what nodes are bound to. -/
lemma load_change (change : Session σ → Session σ) {session : Session σ} {loading : Nat}
    (hstage : (change session).stage = session.stage)
    (hheld : (change session).held = session.held)
    (hbudget : (change session).settings.budget = session.settings.budget)
    (hnodes : ∀ nodes, (change session).dispatch.bindAll loading nodes =
      session.dispatch.bindAll loading nodes)
    (hready : ∀ bound, change { session with held := some bound, stage := .ready } =
      { change session with held := some bound, stage := .ready })
    (descriptor : Bytes) :
    (change session).load loading descriptor =
      { session.load loading descriptor with
        session := change (session.load loading descriptor).session } := by
  have hclose : (change session).close = session.close := by rw [close, close, hheld]
  unfold Session.load
  rw [hstage, hbudget]
  cases session.stage with
  | ready | freed => simp only [refusal, hstage]
  | configuring =>
    cases session.settings.budget with
    | error fault => rfl
    | ok budget =>
      cases Network.decode descriptor with
      | error fault => rfl
      | ok network =>
        simp only [Session.bind, hnodes, hclose]
        cases (session.dispatch.bindAll loading network.nodes).failure with
        | some failure => rfl
        | none =>
          cases network.arena budget with
          | error fault => rfl
          | ok arena => simp only [hready]

/-! ## The dispatch table -/

/-- Another dispatch table leaves contents alone. -/
lemma leavesContents_withDispatch (dispatch : Dispatch σ) :
    LeavesContents fun session : Session σ => { session with dispatch := dispatch } where
  stage_eq _ := rfl
  ready _ bound hheld := ⟨bound, hheld, ⟨rfl, rfl, rfl⟩, fun _ => rfl⟩
  not_ready _ hready := hready

/-- A session does the same with another dispatch table, and keeps it, unless an override is
registered or a descriptor is loaded. -/
theorem perform_withDispatch_eq (session : Session σ) (dispatch : Dispatch σ) {action : Action σ}
    (hregister : ∀ op resolver, action ≠ .register op resolver)
    (hload : ∀ loading descriptor, action ≠ .load loading descriptor) :
    perform { session with dispatch := dispatch } action =
      { session.perform action with
        session := { (session.perform action).session with dispatch := dispatch } } := by
  have hleaves := leavesContents_withDispatch dispatch
  have hupdated := updated_change (fun session : Session σ => { session with dispatch := dispatch })
  have hready : ready? { session with dispatch := dispatch } = session.ready? := rfl
  cases action with
  | register op resolver => exact absurd rfl (hregister op resolver)
  | load loading descriptor => exact absurd rfl (hload loading descriptor)
  | forward readings =>
    rw [perform, perform, replied, replied]
    cases hbound : session.ready? with
    | none =>
      rw [forward_of_not_ready hbound, forward_of_not_ready (hready.trans hbound)]
      rfl
    | some bound =>
      rw [forward_of_ready hbound, forward_of_ready (hready.trans hbound)]
      rfl
  | write side index offset bytes =>
    rw [perform, perform, hleaves.write_eq session]
    exact hupdated session _
  | writeSingles index values =>
    rw [perform, perform, hleaves.writeInputSingles_eq session]
    exact hupdated session _
  | ask question => cases question <;> rfl
  | free =>
    obtain ⟨settings, stage, dispatch', held, latest⟩ := session
    cases stage <;> rfl

/-- A session keeps its dispatch table, unless an override is registered or a descriptor is
loaded. -/
lemma dispatch_perform (session : Session σ) {action : Action σ}
    (hregister : ∀ op resolver, action ≠ .register op resolver)
    (hload : ∀ loading descriptor, action ≠ .load loading descriptor) :
    (session.perform action).session.dispatch = session.dispatch :=
  congrArg (fun response => response.session.dispatch)
    (session.perform_withDispatch_eq session.dispatch hregister hload)

end Session

end Inference
