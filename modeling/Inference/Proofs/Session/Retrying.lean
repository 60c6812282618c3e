import Inference.Proofs.Session.Loading
import Inference.Proofs.Session.Releasing

set_option autoImplicit false
set_option relaxedAutoImplicit false

/-!
# Retrying

A loading that fails leaves nothing behind: the session is the one it was, what was bound on the
way is released on the way, and whatever the host does later goes as if the loading had never been
tried. This holds for any number of failed loadings at any places of a history: an override answers
from the node that it is shown and the number of the loading, and the loadings that are left keep
their numbers.

## Main definitions

* `Exchange`, `Session.trace` — the actions of a host with what each gave back.
* `Session.withoutFailures` — the actions that are left when failed loadings are dropped.

## Main results

* `Session.session_load_of_error` — a loading that fails leaves the session as it was.
* `Session.trace_withoutFailures` — failed loadings have no part in what the others give back.
* `Session.failed_load_leaves_nothing` — both, for a loading that fails and anything after it.
-/

namespace Inference

variable {σ : Type}

/-! ## Exchanges -/

/-- An action and what it gave back. -/
structure Exchange (σ : Type) where
  action : Action σ
  response : Response σ

/-- Whether an exchange is a loading that failed. -/
def Exchange.isFailedLoad (exchange : Exchange σ) : Bool :=
  match exchange.action, exchange.response.answer with
  | .load .., .done (.error _) => true
  | _, _ => false

namespace Session

/-- A list of actions with what each of them gives back. -/
def trace (session : Session σ) : List (Action σ) → List (Exchange σ)
  | [] => []
  | action :: actions =>
    ⟨action, session.perform action⟩ :: (session.perform action).session.trace actions

/-- What actions give back one after another. -/
lemma trace_append (session : Session σ) (front back : List (Action σ)) :
    session.trace (front ++ back) = session.trace front ++ (session.after front).trace back := by
  induction front generalizing session with
  | nil => rfl
  | cons action front ih => rw [List.cons_append, trace, trace, ih, List.cons_append, after]

/-- What actions give back when failed loadings are dropped. -/
def successes (session : Session σ) (actions : List (Action σ)) : List (Exchange σ) :=
  (session.trace actions).filter fun exchange => !exchange.isFailedLoad

/-- The actions that are left when failed loadings are dropped. -/
def withoutFailures (session : Session σ) (actions : List (Action σ)) : List (Action σ) :=
  (session.successes actions).map Exchange.action

variable {session : Session σ} {loading : Nat} {descriptor : Bytes} {fault : SessionFault}

/-! ## Failed loadings -/

/-- A loading that fails leaves the session as it was, at whatever step it fails. -/
theorem session_load_of_error (h : (session.load loading descriptor).result = .error fault) :
    (session.load loading descriptor).session = session := by
  have hloads := session.loads_load loading descriptor
  generalize session.load loading descriptor = reply at h hloads
  cases hloads with
  | loaded => cases h
  | _ => rfl

/-- A loading that fails, as an action, leaves the session as it was. -/
lemma session_of_isFailedLoad {action : Action σ}
    (h : Exchange.isFailedLoad ⟨action, session.perform action⟩ = true) :
    (session.perform action).session = session := by
  cases action with
  | load loading descriptor =>
    cases hresult : (session.load loading descriptor).result with
    | error fault => exact session_load_of_error hresult
    | ok _ => simp [Exchange.isFailedLoad, perform, replied, hresult] at h
  | _ => simp [Exchange.isFailedLoad] at h

/-- A loading that fails releases what it bound. -/
lemma releases_load_of_error (hstage : session.stage = .configuring)
    (h : (session.load loading descriptor).result = .error fault) :
    Event.releases (session.load loading descriptor).journal =
      Event.bindings (session.load loading descriptor).journal := by
  have hkept := session_load_of_error h
  have heffect := session.effect_load loading descriptor
  generalize (session.load loading descriptor).session = next at hkept heffect
  generalize (session.load loading descriptor).journal = journal at heffect
  cases heffect with
  | unchanged | registered | written => rfl
  | undone loading descriptor network =>
    obtain ⟨hbindings, hreleases⟩ := bindings_bindAll session.dispatch loading network.nodes
    obtain ⟨hreleased, hbound⟩ :=
      releases_releaseAll (session.dispatch.bindAll loading network.nodes).functions
    rw [releases_append, bindings_append, hbindings, hreleases, hreleased, hbound,
      List.append_nil, List.nil_append]
  | loaded | freed =>
    have hother := congrArg Session.stage hkept
    rw [hstage] at hother
    cases hother
  | passed bound =>
    obtain ⟨hbindings, hreleases⟩ := bindings_walk bound.functions bound.arena.split
    exact hreleases.trans hbindings.symm

/-! ## Histories -/

/-- A failed loading is dropped. -/
lemma successes_cons_of_failed {action : Action σ}
    (h : Exchange.isFailedLoad ⟨action, session.perform action⟩ = true)
    (actions : List (Action σ)) :
    session.successes (action :: actions) = session.successes actions := by
  have hkept := session_of_isFailedLoad h
  rw [successes, trace, List.filter_cons_of_neg (by simp [h]), hkept, successes]

/-- Anything else is kept. -/
lemma successes_cons_of_not_failed {action : Action σ}
    (h : ¬Exchange.isFailedLoad ⟨action, session.perform action⟩ = true)
    (actions : List (Action σ)) :
    session.successes (action :: actions) =
      ⟨action, session.perform action⟩ :: (session.perform action).session.successes actions := by
  rw [successes, trace, List.filter_cons_of_pos (by simp [h]), ← successes]

/-- A history without its failed loadings gives back what it gave back with them, and ends in the
same session. -/
theorem trace_withoutFailures (session : Session σ) (actions : List (Action σ)) :
    session.trace (session.withoutFailures actions) = session.successes actions ∧
      session.after (session.withoutFailures actions) = session.after actions := by
  induction actions generalizing session with
  | nil => exact ⟨rfl, rfl⟩
  | cons action actions ih =>
    by_cases hfailed : Exchange.isFailedLoad ⟨action, session.perform action⟩ = true
    · have hkept := session_of_isFailedLoad hfailed
      rw [withoutFailures, successes_cons_of_failed hfailed, ← withoutFailures, after, hkept]
      exact ih session
    · obtain ⟨htrace, hafter⟩ := ih (session.perform action).session
      rw [withoutFailures, successes_cons_of_not_failed hfailed, List.map_cons, ← withoutFailures,
        trace, after, after]
      exact ⟨congrArg _ htrace, hafter⟩

/-- **Retrying**: a loading that fails, at whatever step, leaves the session configuring with the
same settings and the same overrides, and nothing bound, as in every configuring session that a
host can get (`coherent_after`): what the loading bound, it released. Whatever the host does later,
with further loadings that fail or succeed among it, gives back the same answers, sessions and
events as without the failed loadings, and ends in the same session.

**Proof sketch.** Every answer but that of success comes with the session that was there before
(`loads_load`), so a failed loading can be dropped from a history (`trace_withoutFailures`). What
was bound and not released is released before the answer is given (`releases_load_of_error`). -/
theorem failed_load_leaves_nothing (hstage : session.stage = .configuring)
    (hfailed : (session.load loading descriptor).result = .error fault) (later : List (Action σ)) :
    let reply := session.load loading descriptor
    let history := Action.load loading descriptor :: later
    reply.session.stage = .configuring ∧
    reply.session.settings = session.settings ∧
    reply.session.dispatch = session.dispatch ∧
    (session.Coherent → reply.session.held = none) ∧
    Event.releases reply.journal = Event.bindings reply.journal ∧
    reply.session.trace later = session.trace later ∧
    session.withoutFailures history = session.withoutFailures later ∧
    session.trace (session.withoutFailures history) = session.successes history ∧
    session.after (session.withoutFailures history) = session.after history := by
  intro reply history
  have hkept : reply.session = session := session_load_of_error hfailed
  have hdropped : Exchange.isFailedLoad
      ⟨.load loading descriptor, session.perform (.load loading descriptor)⟩ = true := by
    simp only [Exchange.isFailedLoad, perform, replied, hfailed]
  refine ⟨?_, ?_, ?_, ?_, releases_load_of_error hstage hfailed, ?_, ?_, ?_, ?_⟩
  · rw [hkept, hstage]
  · rw [hkept]
  · rw [hkept]
  · intro hcoherent
    rw [hkept]
    exact hcoherent.held_eq_none (by simp [hstage])
  · rw [hkept]
  · rw [withoutFailures, successes_cons_of_failed hdropped, withoutFailures]
  · exact (session.trace_withoutFailures history).1
  · exact (session.trace_withoutFailures history).2

/-- Two functions in a row, over variables of one byte. -/
def twoSteps : Draft where
  buffers := [1]
  variableTable :=
    [{ id := 0, dims := [1], elementType := .sign, backing := .buffer 0 },
     { id := 1, dims := [1], elementType := .sign, backing := .buffer 0 }]
  functions :=
    [{ op := .relu, inputs := [0], outputs := [1] },
     { op := .tanh, inputs := [0], outputs := [1] }]
  inputs := [0]
  outputs := [1]

/-- Takes every node, with a private state and a release routine. -/
def taking : Resolver Nat := fun _ _ _ =>
  { resolution := .matched
    slot :=
      { execute := some fun call state => ⟨call.inputs, state, .ok (), []⟩
        release := some fun _ => []
        state := some 0 }
    notes := [] }

/-- The second function of two cannot be bound, so the first one is released. Once there is an
override for it, loading goes as if it were the first time. -/
theorem retry_twoSteps :
    let session := (Session.new {} .empty).after [.register .relu taking]
    let later : List (Action Nat) :=
      [.register .tanh taking, .load 1 twoSteps.encode, .forward id, .ask (.contents .output 0)]
    (session.load 0 twoSteps.encode).result = .error (.unsupported .tanh 0 1 .noCandidate) ∧
      ((session.after (later.take 1)).load 1 twoSteps.encode).result = .ok () ∧
      (session.load 0 twoSteps.encode).session.trace later = session.trace later := by
  intro session later
  have hfailed : (session.load 0 twoSteps.encode).result =
      .error (.unsupported .tanh 0 1 .noCandidate) := by decide +kernel
  have hloaded : ((session.after (later.take 1)).load 1 twoSteps.encode).result = .ok () := by
    decide +kernel
  obtain ⟨-, -, -, -, -, htrace, -⟩ := failed_load_leaves_nothing rfl hfailed later
  exact ⟨hfailed, hloaded, htrace⟩

end Session

end Inference
