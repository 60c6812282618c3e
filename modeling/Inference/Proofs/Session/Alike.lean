import Inference.Proofs.Session.Profiling
import Inference.Proofs.Session.Views

set_option autoImplicit false
set_option relaxedAutoImplicit false

/-!
# Sessions that do the same

Two sessions of which only one times its passes do the same, and so do two sessions whose clocks
show different times. Such sessions are alike: they stay so after the same actions, answer the same,
and can be written to in the same places. What a host sees of a session that has loaded a descriptor
depends on its network, until it is freed.

## Main definitions

* `Session.Alike` — sessions that differ in timings.
* `Session.Exposing` — a session that exposes a network until it is freed.

## Main results

* `Session.Alike.perform`, `Session.Alike.exists_write` — sessions that are alike stay so.
* `Session.Exposing.perform`, `Session.Exposing.byteSize_perform` — no action but freeing changes
  what is exposed.
* `Session.exposing_load` — a session that has loaded a descriptor exposes its network.
-/

namespace Inference

namespace Session

variable {σ : Type}

/-! ## Sessions that differ in timings -/

/-- Sessions that differ at most in their timings, and in whether they take any. -/
def Alike (session other : Session σ) : Prop :=
  session.untimed = other.untimed

namespace Alike

variable {session other : Session σ} (h : session.Alike other)
include h

/-- They give the same answer to the same action, up to timings, and are alike after it. -/
lemma perform {action action' : Action σ} (haction : action.untimed = action'.untimed) :
    (session.perform action).answer.untimed = (other.perform action').answer.untimed ∧
      (session.perform action).session.Alike (other.perform action').session := by
  have hresponse : (session.perform action).untimed = (other.perform action').untimed := by
    rw [← perform_untimed, ← perform_untimed, haction, h]
  exact ⟨congrArg Response.answer hresponse, congrArg Response.session hresponse⟩

/-- They give the same answers to questions about inputs, outputs and contents. -/
lemma answer_eq (question : Question) (hquestion : question.OfContents) :
    session.answer question = other.answer question := by
  rw [← leavesContents_untimed.answer_eq session hquestion, h,
    leavesContents_untimed.answer_eq other hquestion]

/-- They have as many inputs and outputs. -/
lemma count_eq (side : Side) : session.count side = other.count side :=
  Answer.number.inj (h.answer_eq (.count side) trivial)

/-- An input or output has the same size. -/
lemma byteSize_eq (side : Side) (index : Nat) :
    session.byteSize side index = other.byteSize side index :=
  Answer.number.inj (h.answer_eq (.byteSize side index) trivial)

/-- It is the same variable. -/
lemma argument_eq (side : Side) (index : Nat) :
    session.argument side index = other.argument side index :=
  Answer.variable.inj (h.answer_eq (.argument side index) trivial)

/-- It has the same contents. -/
lemma read_eq (side : Side) (index : Nat) :
    session.read side index = other.read side index :=
  Answer.bytes.inj (h.answer_eq (.contents side index) trivial)

/-- What can be written to one can be written to the other. -/
lemma exists_write {side : Side} {index offset : Nat} {bytes : Bytes}
    (hwrite : ∃ next, other.write side index offset bytes = .ok next) :
    ∃ next, session.write side index offset bytes = .ok next ∧
      next.Alike (other.perform (.write side index offset bytes)).session := by
  obtain ⟨next', hnext'⟩ := hwrite
  have hother : other.perform (.write side index offset bytes) = ⟨.done (.ok ()), next', []⟩ := by
    rw [Session.perform, hnext', updated]
  obtain ⟨hanswer, halike⟩ := h.perform (rfl : (Action.write side index offset bytes).untimed = _)
  rw [hother] at hanswer halike ⊢
  rw [Session.perform] at hanswer halike
  cases hnext : session.write side index offset bytes with
  | error fault =>
    rw [hnext] at hanswer
    cases hanswer
  | ok next =>
    rw [hnext] at halike
    exact ⟨next, rfl, halike⟩

end Alike

/-! ## Sessions that stay ready -/

/-- A session that exposes a network until it is freed. -/
def Exposing (session : Session σ) (network : Network) : Prop :=
  session.stage = .ready ∧
    ∀ actions, Action.free ∉ actions → (session.after actions).Exposes network

namespace Exposing

variable {session : Session σ} {network : Network} (h : session.Exposing network)
include h

/-- It exposes the network at once, -/
lemma exposes : session.Exposes network :=
  h.2 [] List.not_mem_nil

/-- and after actions other than freeing. -/
lemma perform {action : Action σ} (haction : action ≠ .free) :
    (session.perform action).session.Exposing network := by
  have hready : (session.after [action]).stage = .ready :=
    (stage_after_eq_ready_iff h.1 [action]).mpr (by simpa using haction.symm)
  refine ⟨hready, fun actions hactions => h.2 (action :: actions) ?_⟩
  rw [List.mem_cons, not_or]
  exact ⟨haction.symm, hactions⟩

/-- No action changes the size of an input or output. -/
lemma byteSize_perform {action : Action σ} (haction : action ≠ .free) (side : Side) (index : Nat) :
    (session.perform action).session.byteSize side index = session.byteSize side index := by
  have hnext := (h.perform haction).exposes
  rcases Nat.lt_or_ge index (network.listed side).length with hlt | hge
  · obtain ⟨v, hv, -, hshows⟩ := h.exposes.shows side index _ (List.getElem?_eq_getElem hlt)
    obtain ⟨v', hv', -, hshows'⟩ := hnext.shows side index _ (List.getElem?_eq_getElem hlt)
    obtain rfl := Option.some.inj (hv.symm.trans hv')
    rw [hshows.byteSize_eq, hshows'.byteSize_eq]
  · rw [(h.exposes.lacks side index hge).byteSize_eq, (hnext.lacks side index hge).byteSize_eq]

end Exposing

/-- A session that has loaded a descriptor exposes its network. -/
lemma exposing_load {session : Session σ} {loading : Nat} {descriptor : Bytes}
    (hload : (session.load loading descriptor).result = .ok ()) :
    ∃ network, (session.load loading descriptor).session.Exposing network := by
  obtain ⟨network, -, hafter⟩ := exposed_after hload
  have hstage (actions : List (Action σ)) (hactions : Action.free ∉ actions) :=
    (hafter actions).1.mpr hactions
  exact ⟨network, hstage [] List.not_mem_nil,
    fun actions hactions => (hafter actions).2 (hstage actions hactions)⟩

end Session

end Inference
