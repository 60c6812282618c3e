import Inference.Proofs.Engine.Timing
import Inference.Proofs.Traversal
import Inference.Session.Access

set_option autoImplicit false
set_option relaxedAutoImplicit false

/-!
# Histories

What a host does with a session, one action after another, and what it is answered. The clock of
a pass is part of the action: a pass may be given any readings.

## Main definitions

* `Action`, `Question`, `Answer` — what a host does, what it asks, and what it is told.
* `Session.perform` — one action.
* `Session.after`, `Session.events` — the session after a list of actions, and what happened.
* `Bound.walk`, `Session.pass` — a pass over a bound network, without a clock and with one.
* `Effect` — what an action can do to a session.

## Main results

* `Session.ready?_eq_some_iff` — when a session is ready with a bound network.
* `Session.effect_perform` — every action has one of these effects.
-/

namespace Inference

/-! ## Actions -/

/-- What a host can ask of a session without changing it. -/
inductive Question where
  | count (side : Side)
  | argument (side : Side) (index : Nat)
  | elementCount (side : Side) (index : Nat)
  | byteSize (side : Side) (index : Nat)
  /-- The contents of an input or output. -/
  | contents (side : Side) (index : Nat)
  /-- The contents of an input or output as float values. -/
  | singles (side : Side) (index : Nat)
  | functionCount
  | bindingSource (index : Nat)
  | metrics

/-- What a host does with a session. -/
inductive Action (σ : Type) where
  | register (op : Operator) (resolver : Resolver σ)
  /-- A descriptor is loaded, under a number for the overrides. -/
  | load (loading : Nat) (descriptor : Bytes)
  /-- A pass, with the successive readings of its clock. -/
  | forward (readings : Nat → Nat)
  /-- Bytes are laid over an input or output from a position on. -/
  | write (side : Side) (index offset : Nat) (bytes : Bytes)
  /-- Float values are laid over an input. -/
  | writeSingles (index : Nat) (values : List Single)
  | ask (question : Question)
  | free

/-- What a host is told. -/
inductive Answer where
  | done (result : Except SessionFault Unit)
  | number (result : Except SessionFault Nat)
  | variable (result : Except SessionFault Variable)
  | bytes (result : Except SessionFault Bytes)
  | singles (result : Except SessionFault (List Single))
  | source (result : Except SessionFault Source)
  | metrics (result : Option Metrics)

/-- What an action gives back: the answer, the session after it, and what happened on the way. -/
structure Response (σ : Type) where
  answer : Answer
  session : Session σ
  journal : List (Event σ)

namespace Session

variable {σ : Type}

/-- The answer to a question. -/
def answer (session : Session σ) : Question → Answer
  | .count side => .number (session.count side)
  | .argument side index => .variable (session.argument side index)
  | .elementCount side index => .number (session.elementCount side index)
  | .byteSize side index => .number (session.byteSize side index)
  | .contents side index => .bytes (session.read side index)
  | .singles side index => .singles (session.readSingles side index)
  | .functionCount => .number session.functionCount
  | .bindingSource index => .source (session.bindingSource index)
  | .metrics => .metrics session.lastMetrics?

/-- The response of an operation that gives a new session or a fault. -/
def updated (session : Session σ) (result : Except SessionFault (Session σ)) : Response σ :=
  match result with
  | .ok next => ⟨.done (.ok ()), next, []⟩
  | .error fault => ⟨.done (.error fault), session, []⟩

/-- The response of an operation with effects. -/
def replied (reply : Reply σ Unit) : Response σ :=
  ⟨.done reply.result, reply.session, reply.journal⟩

/-- One action. -/
def perform (session : Session σ) : Action σ → Response σ
  | .register op resolver => session.updated (session.register op resolver)
  | .load loading descriptor => replied (session.load loading descriptor)
  | .forward readings => replied (session.forward tick readings).1
  | .write side index offset bytes => session.updated (session.write side index offset bytes)
  | .writeSingles index values => session.updated (session.writeInputSingles index values)
  | .ask question => ⟨session.answer question, session, []⟩
  | .free => replied session.free

/-- The session after a list of actions. -/
def after (session : Session σ) : List (Action σ) → Session σ
  | [] => session
  | action :: actions => (session.perform action).session.after actions

/-- What happens during a list of actions. -/
def events (session : Session σ) : List (Action σ) → List (Event σ)
  | [] => []
  | action :: actions =>
    (session.perform action).journal ++ (session.perform action).session.events actions

/-- Actions one after another. -/
@[simp]
lemma after_append (session : Session σ) (front back : List (Action σ)) :
    session.after (front ++ back) = (session.after front).after back := by
  induction front generalizing session with
  | nil => rfl
  | cons action front ih => exact ih _

/-- What happens during actions one after another. -/
@[simp]
lemma events_append (session : Session σ) (front back : List (Action σ)) :
    session.events (front ++ back) = session.events front ++ (session.after front).events back := by
  induction front generalizing session with
  | nil => rfl
  | cons action front ih => rw [List.cons_append, events, events, ih, List.append_assoc, after]

end Session

/-! ## Ready sessions -/

namespace Session

variable {σ : Type} {session : Session σ} {bound : Bound σ}

/-- A session is ready with a bound network when it holds this network and its stage says so. -/
lemma ready?_eq_some_iff :
    session.ready? = some bound ↔ session.stage = .ready ∧ session.held = some bound := by
  unfold ready?
  cases session.held <;> cases session.stage <;> simp

/-- The stage of a session that is ready. -/
lemma stage_of_ready (h : session.ready? = some bound) : session.stage = .ready :=
  (ready?_eq_some_iff.mp h).1

/-- The network that a session holds when it is ready. -/
lemma held_of_ready (h : session.ready? = some bound) : session.held = some bound :=
  (ready?_eq_some_iff.mp h).2

/-- At another stage no network can be used. -/
lemma ready?_of_stage_ne (h : session.stage ≠ .ready) : session.ready? = none :=
  Option.eq_none_iff_forall_not_mem.mpr fun _ hbound => h (stage_of_ready hbound)

/-- A session that is ready stays ready with another network in place of its own. -/
@[simp]
lemma ready?_holding (h : session.ready? = some bound) (next : Bound σ) (latest : Option Metrics) :
    ready? { session with held := some next, latest := latest } = some next :=
  ready?_eq_some_iff.mpr ⟨(stage_of_ready h : session.stage = .ready), rfl⟩

/-- When a session that holds no network is given up, nothing happens. -/
lemma close_of_held_eq_none (h : session.held = none) : session.close = [] := by
  rw [close, h]

/-- The bound network of a session is there when the session is ready. -/
lemma bound_eq_ok_iff {operation : Operation} :
    session.bound operation = .ok bound ↔ session.ready? = some bound := by
  rw [Session.bound, orFault_eq_ok_iff]

end Session

/-! ## Effects -/

section

variable {σ : Type}

/-- A pass over a bound network, without a clock. -/
def Bound.walk (bound : Bound σ) : Pass σ :=
  Engine.walk bound.functions bound.arena.split

/-- The pass over the network that a session is ready with, with the given readings of its clock. -/
def Session.pass (session : Session σ) (bound : Bound σ) (readings : Nat → Nat) : Pass σ :=
  (Engine.run tick session.settings.profiling bound.functions bound.arena.split readings).1

/-- A pass does what it does without a clock. -/
lemma Session.pass_untimed (session : Session σ) (bound : Bound σ) (readings : Nat → Nat) :
    (session.pass bound readings).untimed = bound.walk :=
  Engine.run_untimed _ _ _ _

/-- What an action can do to a session: the session after it, and what happens on the way. -/
inductive Effect (session : Session σ) : Session σ → List (Event σ) → Prop where
  /-- A question, or an action that is refused. -/
  | unchanged : Effect session session []
  | registered (op : Operator) (resolver : Resolver σ) (hstage : session.stage = .configuring) :
      Effect session { session with dispatch := session.dispatch.register op resolver } []
  /-- A network that cannot be bound. -/
  | undone (loading : Nat) (descriptor : Bytes) (network : Network)
      (hstage : session.stage = .configuring) (hdecode : Network.decode descriptor = .ok network) :
      Effect session session ((session.dispatch.bindAll loading network.nodes).journal ++
        BoundNode.releaseAll (session.dispatch.bindAll loading network.nodes).functions)
  | loaded (loading : Nat) (descriptor : Bytes) (network : Network) (budget : Budget)
      (arena : Arena) (hstage : session.stage = .configuring)
      (hdecode : Network.decode descriptor = .ok network)
      (hbound : (session.dispatch.bindAll loading network.nodes).failure = none)
      (harena : network.arena budget = .ok arena) :
      Effect session
        { session with
          held := some
            { inputs := network.select network.inputs
              outputs := network.select network.outputs
              functions := (session.dispatch.bindAll loading network.nodes).functions
              arena := arena }
          stage := .ready }
        ((session.dispatch.bindAll loading network.nodes).journal ++ session.close)
  | passed (bound : Bound σ) (readings : Nat → Nat) (hheld : session.ready? = some bound) :
      Effect session
        { session with
          held := some (bound.after bound.walk)
          latest := (session.pass bound readings).metrics.or session.latest }
        bound.walk.journal
  | written (bound : Bound σ) (v : Variable) (offset : Nat) (bytes : Bytes)
      (hheld : session.ready? = some bound) :
      Effect session
        { session with
          held := some { bound with arena := bound.arena.write v.index offset bytes } } []
  | freed (hstage : session.stage ≠ .freed) :
      Effect session { session with held := none, latest := none, stage := .freed } session.close

namespace Session

/-- A pass of a session that is ready is the pass over its network. -/
lemma forward_of_ready {session : Session σ} {bound : Bound σ} (h : session.ready? = some bound)
    (readings : Nat → Nat) :
    (session.forward tick readings).1 =
      ⟨passResult bound.walk.failure,
        { session with
          held := some (bound.after bound.walk)
          latest := (session.pass bound readings).metrics.or session.latest },
        bound.walk.journal⟩ := by
  unfold Session.forward
  rw [h, ← session.pass_untimed bound readings]
  rfl

/-- A pass of any other session is refused. -/
lemma forward_of_not_ready {session : Session σ} (h : session.ready? = none)
    (readings : Nat → Nat) :
    (session.forward tick readings).1 = ⟨.error (session.refusal .forward), session, []⟩ := by
  unfold Session.forward
  rw [h]
  rfl

/-- A write that succeeds changes the contents of one variable of the bound network, and nothing
else. -/
lemma exists_of_write {session next : Session σ} {side : Side} {index offset : Nat} {bytes : Bytes}
    (h : session.write side index offset bytes = .ok next) :
    ∃ (bound : Bound σ) (v : Variable), session.ready? = some bound ∧
      next = { session with
        held := some { bound with arena := bound.arena.write v.index offset bytes } } := by
  unfold Session.write at h
  simp only [bind_eq_ok_iff, bound_eq_ok_iff, pure_eq_ok_iff] at h
  obtain ⟨bound, hready, v, -, _, -, rfl⟩ := h
  exact ⟨bound, v, hready, rfl⟩

/-- Writing changes the contents of one variable, or nothing. -/
lemma effect_updated_write (session : Session σ) (side : Side) (index offset : Nat)
    (bytes : Bytes) :
    Effect session (session.updated (session.write side index offset bytes)).session
      (session.updated (session.write side index offset bytes)).journal := by
  cases hwrite : session.write side index offset bytes with
  | error fault => exact .unchanged
  | ok next =>
    obtain ⟨bound, v, hheld, rfl⟩ := exists_of_write hwrite
    exact .written bound v offset bytes hheld

/-- Loading binds a network, or binds nothing. -/
lemma effect_load (session : Session σ) (loading : Nat) (descriptor : Bytes) :
    Effect session (session.load loading descriptor).session
      (session.load loading descriptor).journal := by
  unfold Session.load
  split
  · next hstage =>
    split
    · exact .unchanged
    · next budget hbudget =>
      split
      · exact .unchanged
      · next network hdecode =>
        simp only [Session.bind]
        split
        · exact .undone loading descriptor network hstage hdecode
        · next hbound =>
          split
          · exact .undone loading descriptor network hstage hdecode
          · next arena harena =>
            exact .loaded loading descriptor network budget arena hstage hdecode hbound harena
  · exact .unchanged

/-- **Effects**: every action has one of the effects that an action can have.

**Proof sketch.** By cases on the action. An action that its stage does not allow, or whose
arguments are refused, changes nothing; what is left in each case is one of the effects. -/
theorem effect_perform (session : Session σ) (action : Action σ) :
    Effect session (session.perform action).session (session.perform action).journal := by
  cases action with
  | register op resolver =>
    simp only [perform, Session.register]
    split
    · next hstage => exact .registered op resolver hstage
    · exact .unchanged
  | load loading descriptor => exact session.effect_load loading descriptor
  | forward readings =>
    rw [perform, replied]
    cases hheld : session.ready? with
    | none =>
      rw [forward_of_not_ready hheld]
      exact .unchanged
    | some bound =>
      rw [forward_of_ready hheld]
      exact .passed bound readings hheld
  | write side index offset bytes => exact session.effect_updated_write side index offset bytes
  | writeSingles index values =>
    simp only [perform, writeInputSingles]
    cases session.readSingles .input index with
    | error fault => exact .unchanged
    | ok _ => exact session.effect_updated_write .input index 0 _
  | ask question => exact .unchanged
  | free =>
    simp only [perform, Session.free]
    split
    · exact .unchanged
    · next hstage => exact .freed hstage

end Session

end

end Inference
