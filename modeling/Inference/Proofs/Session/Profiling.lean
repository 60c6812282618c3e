import Inference.Proofs.Session.Stages
import Mathlib.Data.List.Basic

set_option autoImplicit false
set_option relaxedAutoImplicit false

/-!
# Timed passes

Passes can be timed. Two sessions of which one times its passes and the other does not answer the
same to everything but the question for timings, whatever their clocks show, and hold the same
contents and private states. The timings that a session keeps are those of its latest complete
pass: one for each function, from the readings that the clock gave in that pass. A pass that fails
leaves them as they were.

## Main definitions

* `Session.untimed`, `Exchange.untimed` — sessions and exchanges with everything about timings
  left out.
* `Metrics.ofReadings` — the timings of a complete pass, from the readings of its clock.
* `Session.latestReadings?` — the readings of the latest complete pass of a history.

## Main results

* `Session.perform_untimed`, `Session.trace_untimed` — timings have no part in anything else.
* `Session.metrics_pass_of_complete` — the timings of a complete pass.
* `Session.lastMetrics?_after` — the timings that a session keeps.
* `Session.profiling_adds_metrics` — what timing passes adds to a session.
-/

namespace Inference

variable {σ : Type}

/-! ## Leaving timings out -/

/-- A session that has no timings and takes none. -/
def Session.untimed (session : Session σ) : Session σ :=
  { session with settings := { session.settings with profiling := false }, latest := none }

/-- An action with other readings of its clock, if it has one. -/
def Action.withReadings (readings : Nat → Nat) : Action σ → Action σ
  | .forward _ => .forward readings
  | action => action

/-- An action whose clock stands still. -/
def Action.untimed (action : Action σ) : Action σ :=
  action.withReadings fun _ => 0

/-- An answer, without timings. -/
def Answer.untimed : Answer → Answer
  | .metrics _ => .metrics none
  | answer => answer

/-- A response, without timings. -/
def Response.untimed (response : Response σ) : Response σ :=
  ⟨response.answer.untimed, response.session.untimed, response.journal⟩

/-- An exchange, without timings. -/
def Exchange.untimed (exchange : Exchange σ) : Exchange σ :=
  ⟨exchange.action.untimed, exchange.response.untimed⟩

/-! ## Actions -/

namespace Session

/-- Loading a descriptor does not depend on whether passes are timed. -/
lemma load_untimed (session : Session σ) (loading : Nat) (descriptor : Bytes) :
    session.untimed.load loading descriptor =
      { session.load loading descriptor with
        session := (session.load loading descriptor).session.untimed } :=
  load_change untimed rfl rfl rfl (fun _ => rfl) (fun _ => rfl) descriptor

/-- Leaving timings out leaves contents alone. -/
lemma leavesContents_untimed : LeavesContents (untimed : Session σ → Session σ) where
  stage_eq _ := rfl
  ready _ bound hheld := ⟨bound, hheld, ⟨rfl, rfl, rfl⟩, fun _ => rfl⟩
  not_ready _ hready := hready

/-- No answer but the timings depends on timings. -/
lemma answer_untimed (session : Session σ) (question : Question) :
    session.untimed.answer question = (session.answer question).untimed := by
  cases question <;> rfl

/-- The response of an operation that gives a session, without timings. -/
lemma updated_untimed (session : Session σ) (result : Except SessionFault (Session σ)) :
    session.untimed.updated (result.map untimed) = (session.updated result).untimed := by
  cases result <;> rfl

/-- A pass does the same whether it is timed or not, and whatever its clock shows. -/
lemma forward_untimed (session : Session σ) (readings readings' : Nat → Nat) :
    replied (session.untimed.forward tick readings').1 =
      (replied (session.forward tick readings).1).untimed := by
  cases hready : session.ready? with
  | none =>
    have hready' : session.untimed.ready? = none := hready
    rw [forward_of_not_ready hready, forward_of_not_ready hready']
    rfl
  | some bound =>
    have hready' : session.untimed.ready? = some bound := hready
    have hplain : (session.untimed.pass bound readings').metrics = none :=
      Engine.metrics_run_plain _ _ _
    rw [forward_of_ready hready, forward_of_ready hready', hplain]
    rfl

/-- **Leaving timings out**: an action does the same whether passes are timed or not, and whatever
the clock shows.

**Proof sketch.** Only passes read a clock, and nothing that they do but the timings depends on it
(`Session.pass_untimed`); only the question for timings looks at what they kept. -/
theorem perform_untimed (session : Session σ) (action : Action σ) :
    session.untimed.perform action.untimed = (session.perform action).untimed := by
  cases action with
  | register op resolver =>
    obtain ⟨settings, stage, dispatch, held, latest⟩ := session
    cases stage <;> rfl
  | load loading descriptor =>
    show replied (session.untimed.load loading descriptor) = _
    rw [load_untimed]
    rfl
  | forward readings => exact session.forward_untimed readings _
  | write side index offset bytes =>
    show session.untimed.updated (session.untimed.write side index offset bytes) = _
    rw [leavesContents_untimed.write_eq, updated_untimed]
    rfl
  | writeSingles index values =>
    show session.untimed.updated (session.untimed.writeInputSingles index values) = _
    rw [leavesContents_untimed.writeInputSingles_eq, updated_untimed]
    rfl
  | ask question =>
    show Response.mk (session.untimed.answer question) session.untimed [] = _
    rw [answer_untimed]
    rfl
  | free =>
    obtain ⟨settings, stage, dispatch, held, latest⟩ := session
    cases stage <;> rfl

/-- Actions give back the same whether passes are timed or not. -/
theorem trace_untimed (session : Session σ) (actions : List (Action σ)) :
    session.untimed.trace (actions.map Action.untimed) =
      (session.trace actions).map Exchange.untimed := by
  induction actions generalizing session with
  | nil => rfl
  | cons action actions ih =>
    rw [List.map_cons, trace, trace, List.map_cons, perform_untimed]
    exact congrArg _ (ih _)

/-- Actions lead to the same session whether passes are timed or not. -/
theorem after_map_untimed (session : Session σ) (actions : List (Action σ)) :
    session.untimed.after (actions.map Action.untimed) = (session.after actions).untimed := by
  induction actions generalizing session with
  | nil => rfl
  | cons action actions ih =>
    rw [List.map_cons, after, after, perform_untimed]
    exact ih _

end Session

/-- Actions with other clocks are the same actions when all clocks stand still. -/
lemma Action.map_untimed_withReadings (actions : List (Action σ)) (clock : Nat → Nat → Nat) :
    (actions.mapIdx fun i action => action.withReadings (clock i)).map Action.untimed =
      actions.map Action.untimed := by
  have hwith (action : Action σ) (readings : Nat → Nat) :
      (action.withReadings readings).untimed = action.untimed := by
    cases action <;> rfl
  apply List.ext_getElem
  · simp
  · intro i hi _
    simp only [List.getElem_map, List.getElem_mapIdx, hwith]

/-! ## What is kept -/

/-- The timings of a complete pass over bound functions, from the successive readings of its clock:
one before the pass, two around each function, and one after the pass. -/
def Metrics.ofReadings (functions : List (BoundNode σ)) (readings : Nat → Nat) : Metrics where
  passNanos := readings (2 * functions.length + 1) - readings 0
  functions := functions.mapIdx fun i function =>
    ⟨i, function.node.op, function.source, readings (2 * i + 2) - readings (2 * i + 1)⟩

/-- Timings tell nothing about private states. -/
lemma Metrics.ofReadings_congr {functions functions' : List (BoundNode σ)}
    (h : (functions'.map fun function => function.withState none) =
      functions.map fun function => function.withState none) :
    ofReadings functions' = ofReadings functions := by
  have hblank (fs : List (BoundNode σ)) :
      ofReadings (fs.map fun function => function.withState none) = ofReadings fs := by
    funext readings
    simp only [ofReadings, List.length_map, mk.injEq, true_and]
    apply List.ext_getElem?
    intro i
    simp only [List.getElem?_mapIdx, List.getElem?_map, Option.map_map]
    rfl
  rw [← hblank functions', h, hblank]

/-- The readings of a pass that was complete. -/
def Exchange.passReadings? (exchange : Exchange σ) : Option (Nat → Nat) :=
  match exchange.action, exchange.response.answer with
  | .forward readings, .done (.ok ()) => some readings
  | _, _ => none

namespace Session

/-- The readings of the latest complete pass of a history. -/
def latestReadings? (session : Session σ) (history : List (Action σ)) : Option (Nat → Nat) :=
  ((session.trace history).filterMap Exchange.passReadings?).getLast?

/-- A last action is the latest complete pass, or leaves it as it was. -/
lemma latestReadings?_append_singleton (session : Session σ) (history : List (Action σ))
    (action : Action σ) :
    session.latestReadings? (history ++ [action]) =
      (Exchange.passReadings? ⟨action, (session.after history).perform action⟩).or
        (session.latestReadings? history) := by
  rw [latestReadings?, trace_append, List.filterMap_append, List.getLast?_append, trace, trace,
    latestReadings?]
  cases hreadings : Exchange.passReadings? ⟨action, (session.after history).perform action⟩ <;>
    simp [hreadings]

/-- The timings of the latest complete pass of a history over what is bound after it. -/
def latestMetrics? (session : Session σ) (history : List (Action σ)) : Option Metrics :=
  match (session.after history).ready? with
  | some bound => (session.latestReadings? history).map (Metrics.ofReadings bound.functions)
  | none => none

end Session

/-- No effect changes the settings. -/
lemma Effect.settings_eq {session next : Session σ} {journal : List (Event σ)}
    (h : Effect session next journal) : next.settings = session.settings := by
  cases h <;> rfl

/-- While a session is configuring, no effect gives it timings. -/
lemma Effect.latest_of_configuring {session next : Session σ} {journal : List (Event σ)}
    (h : Effect session next journal) (hstage : session.stage = .configuring)
    (hnone : session.latest = none) : next.latest = none := by
  cases h with
  | unchanged | undone | registered | loaded => exact hnone
  | freed => rfl
  | passed bound readings hready | written bound v offset bytes hready =>
    rw [Session.stage_of_ready hready] at hstage
    cases hstage

/-- A session that an action made ready was configuring before. -/
lemma Moves.configuring_of_ready {action : Action σ} {succeeds : Bool} {before : Stage}
    (h : Moves action succeeds before .ready) (hbefore : before ≠ .ready) :
    before = .configuring := by
  cases h with
  | loaded => rfl
  | failed | stays => exact absurd rfl hbefore

namespace Session

variable {session : Session σ}

/-- No action changes the settings. -/
lemma settings_after (session : Session σ) (actions : List (Action σ)) :
    (session.after actions).settings = session.settings := by
  induction actions generalizing session with
  | nil => rfl
  | cons action actions ih =>
    rw [after, ih]
    exact (session.effect_perform action).settings_eq

/-- A timed pass that is complete has the timings of its bound functions. -/
lemma metrics_pass_of_complete {bound : Bound σ} (hprofiling : session.settings.profiling = true)
    (hindex : ∀ (i : Nat) (function : BoundNode σ),
      bound.functions[i]? = some function → function.node.index = i)
    (hcomplete : bound.walk.failure = none) (readings : Nat → Nat) :
    (session.pass bound readings).metrics = some (Metrics.ofReadings bound.functions readings) := by
  have hentries : Engine.timings bound.functions (fun i => readings (i + 1)) =
      (Metrics.ofReadings bound.functions readings).functions := by
    apply List.ext_getElem?
    intro i
    rw [Engine.timings, Metrics.ofReadings, List.getElem?_mapIdx, List.getElem?_mapIdx]
    cases hfunction : bound.functions[i]? with
    | none => rfl
    | some function => rw [Option.map_some, Option.map_some, hindex i function hfunction]
  rw [pass, hprofiling, Engine.metrics_run_of_complete hcomplete, hentries]
  rfl

/-- A timed pass keeps its timings if it is complete, and otherwise the timings that there were. -/
lemma lastMetrics?_forward {bound : Bound σ} (hready : session.ready? = some bound)
    (hprofiling : session.settings.profiling = true)
    (hindex : ∀ (i : Nat) (function : BoundNode σ),
      bound.functions[i]? = some function → function.node.index = i)
    (readings : Nat → Nat) :
    (session.perform (.forward readings)).session.lastMetrics? =
      ((Exchange.passReadings? ⟨.forward readings, session.perform (.forward readings)⟩).map
        (Metrics.ofReadings bound.functions)).or session.lastMetrics? := by
  rw [perform, forward_of_ready hready]
  cases hfailure : bound.walk.failure with
  | some failure =>
    have hnone : (session.pass bound readings).metrics = none :=
      Engine.metrics_run_of_failure (by rw [← Bound.walk, hfailure]; simp) _ _
    simp only [replied, lastMetrics?, hnone, passResult, Exchange.passReadings?, Option.map_none,
      Option.none_or]
  | none =>
    simp only [replied, lastMetrics?, metrics_pass_of_complete hprofiling hindex hfailure,
      passResult, Exchange.passReadings?, Option.map_some]

/-- No other action changes the timings of a session, as long as it stays ready. -/
lemma lastMetrics?_perform {action : Action σ} (hforward : ∀ readings, action ≠ .forward readings)
    (hready : session.stage = .ready) (hnext : (session.perform action).session.stage = .ready) :
    (session.perform action).session.lastMetrics? = session.lastMetrics? := by
  have hwrite (side : Side) (index offset : Nat) (bytes : Bytes) :
      (session.updated (session.write side index offset bytes)).session.lastMetrics? =
        session.lastMetrics? := by
    cases hwrite : session.write side index offset bytes with
    | error fault => rfl
    | ok next =>
      obtain ⟨bound, v, -, rfl⟩ := exists_of_write hwrite
      rfl
  cases action with
  | forward readings => exact absurd rfl (hforward readings)
  | register op resolver =>
    rw [(perform_of_not_allowed rfl (by rw [hready]; rfl)).2.1]
  | load loading descriptor => rw [(perform_of_not_allowed rfl (by rw [hready]; rfl)).2.1]
  | write side index offset bytes => exact hwrite side index offset bytes
  | writeSingles index values =>
    simp only [perform, writeInputSingles]
    cases session.readSingles .input index with
    | error fault => rfl
    | ok _ => exact hwrite .input index 0 _
  | ask question => rfl
  | free =>
    simp only [perform, Session.free, hready] at hnext
    cases hnext

/-- Only a pass can be a complete pass. -/
lemma passReadings?_of_ne_forward {action : Action σ}
    (h : ∀ readings, action ≠ .forward readings) (response : Response σ) :
    Exchange.passReadings? ⟨action, response⟩ = none := by
  cases action with
  | forward readings => exact absurd rfl (h readings)
  | _ => rfl

/-- A session that is not ready completes no pass. -/
lemma passReadings?_of_not_ready (h : session.stage ≠ .ready) (action : Action σ) :
    Exchange.passReadings? ⟨action, session.perform action⟩ = none := by
  cases action with
  | forward readings =>
    rw [perform, forward_of_not_ready (ready?_of_stage_ne h)]
    rfl
  | _ => rfl

/-- There are no timings of a session that is not ready. -/
lemma latestMetrics?_of_not_ready {history : List (Action σ)}
    (h : (session.after history).stage ≠ .ready) : session.latestMetrics? history = none := by
  rw [latestMetrics?, ready?_of_stage_ne h]

/-- A session that is still configuring has completed no pass. -/
lemma latestReadings?_of_configuring (start : Session σ) {history : List (Action σ)}
    (h : (start.after history).stage = .configuring) : start.latestReadings? history = none := by
  induction history using List.reverseRecOn with
  | nil => rfl
  | append_singleton history action ih =>
    have hmoves := (start.after history).moves_perform action
    rw [after_append, after, after] at h
    rw [h] at hmoves
    have hbefore : (start.after history).stage = .configuring := by
      generalize (start.after history).stage = before at hmoves ⊢
      generalize ((start.after history).perform action).answer.fault?.isNone = succeeds at hmoves
      cases hmoves <;> rfl
    rw [latestReadings?_append_singleton, ih hbefore, Option.or_none]
    exact passReadings?_of_not_ready (by rw [hbefore]; simp) action

/-- A network that was bound in a history has its functions in table order. -/
lemma index_of_ready {settings : Settings} {registry : Registry σ} {history : List (Action σ)}
    {bound : Bound σ} (h : ((Session.new settings registry).after history).ready? = some bound)
    (i : Nat) (function : BoundNode σ) (hfunction : bound.functions[i]? = some function) :
    function.node.index = i := by
  obtain ⟨-, -, descriptor, -, network, -, -, hdecode, hserves⟩ := exists_load_of_ready h
  have hnode : network.nodes[i]? = some function.node := by
    rw [← hserves.nodes_eq, List.getElem?_map, hfunction, Option.map_some]
  rw [Network.nodes, List.getElem?_map, Option.map_eq_some_iff] at hnode
  obtain ⟨entry, hentry, hnode⟩ := hnode
  rw [← hnode]
  exact (Network.consistent_of_decode hdecode).function_index i entry hentry

/-- **Kept timings**: a session that times its passes keeps the timings of its latest complete pass,
and none before the first one or after the end.

**Proof sketch.** Induction on the history, from its end. If the session was ready, the last action
is a pass, which keeps its timings if it is complete (`lastMetrics?_forward`), or changes no
timings (`lastMetrics?_perform`). If it was not, it was configuring: then it had no timings and no
pass was completed, and the last action only bound a network (`Effect.latest_of_configuring`). -/
theorem lastMetrics?_after (settings : Settings) (registry : Registry σ)
    (htimed : settings.profiling = true) (history : List (Action σ)) :
    ((Session.new settings registry).after history).lastMetrics? =
      (Session.new settings registry).latestMetrics? history := by
  induction history using List.reverseRecOn with
  | nil => rfl
  | append_singleton history action ih =>
    set start := Session.new settings registry with hstart
    have hbefore : (start.after history).Coherent := coherent_after settings registry history
    have hcoherent : (start.after (history ++ [action])).Coherent :=
      coherent_after settings registry _
    by_cases hnext : (start.after (history ++ [action])).stage = .ready
    case neg =>
      exact (hcoherent.latest_eq_none hnext).trans (latestMetrics?_of_not_ready hnext).symm
    obtain ⟨other, hother⟩ := hcoherent.exists_ready hnext
    have hlatest : start.latestMetrics? (history ++ [action]) =
        ((Exchange.passReadings? ⟨action, (start.after history).perform action⟩).or
          (start.latestReadings? history)).map (Metrics.ofReadings other.functions) := by
      rw [latestMetrics?, hother, latestReadings?_append_singleton]
    rw [after_append, after, after] at hnext hother ⊢
    have heffect := (start.after history).effect_perform action
    by_cases hready : (start.after history).stage = .ready
    · obtain ⟨bound, hbound⟩ := hbefore.exists_ready hready
      obtain ⟨hsame, -⟩ := heffect.sameBinding hbound hother
      have hkept : (start.after history).lastMetrics? =
          (start.latestReadings? history).map (Metrics.ofReadings bound.functions) := by
        rw [ih, latestMetrics?, hbound]
      rw [hlatest, Metrics.ofReadings_congr hsame.functions_eq]
      by_cases hforward : ∃ readings, action = .forward readings
      · obtain ⟨readings, rfl⟩ := hforward
        have hprofiling : (start.after history).settings.profiling = true := by
          rw [settings_after]
          exact htimed
        rw [lastMetrics?_forward hbound hprofiling (index_of_ready hbound) readings, hkept,
          Option.map_or]
      · rw [not_exists] at hforward
        rw [lastMetrics?_perform hforward hready hnext, hkept,
          passReadings?_of_ne_forward hforward, Option.none_or]
    · have hmoves := (start.after history).moves_perform action
      rw [hnext] at hmoves
      have hconfiguring := hmoves.configuring_of_ready hready
      have hnone : ((start.after history).perform action).session.lastMetrics? = none :=
        heffect.latest_of_configuring hconfiguring (hbefore.latest_eq_none hready)
      rw [hlatest, hnone, latestReadings?_of_configuring start hconfiguring,
        passReadings?_of_not_ready hready]
      rfl

/-- A pass that fails leaves the timings that there were. -/
lemma lastMetrics?_of_failed {settings : Settings} {registry : Registry σ}
    (htimed : settings.profiling = true) (history : List (Action σ)) {readings : Nat → Nat}
    {fault : SessionFault}
    (h : (((Session.new settings registry).after history).perform (.forward readings)).answer =
      .done (.error fault)) :
    (((Session.new settings registry).after history).perform
        (.forward readings)).session.lastMetrics? =
      ((Session.new settings registry).after history).lastMetrics? := by
  set session := (Session.new settings registry).after history with hsession
  by_cases hready : session.stage = .ready
  · obtain ⟨bound, hbound⟩ := (coherent_after settings registry history).exists_ready hready
    have hprofiling : session.settings.profiling = true := by
      rw [hsession, settings_after]
      exact htimed
    rw [lastMetrics?_forward hbound hprofiling (index_of_ready hbound), Exchange.passReadings?, h]
    rfl
  · have hrefused : session.stage.allows .forward = false := decide_eq_false hready
    rw [(perform_of_not_allowed rfl hrefused).2.1]

end Session

/-- No effect gives timings to a session that takes none. -/
lemma Effect.latest_of_plain {session next : Session σ} {journal : List (Event σ)}
    (h : Effect session next journal) (hprofiling : session.settings.profiling = false)
    (hnone : session.latest = none) : next.latest = none := by
  cases h with
  | unchanged | undone | registered | loaded | written => exact hnone
  | freed => rfl
  | passed bound readings hready =>
    have hplain : (session.pass bound readings).metrics = none := by
      rw [Session.pass, hprofiling]
      exact Engine.metrics_run_plain _ _ _
    show (session.pass bound readings).metrics.or session.latest = none
    rw [hplain, hnone]
    rfl

namespace Session

/-- A session that takes no timings has none. -/
lemma lastMetrics?_of_plain {session : Session σ} (hprofiling : session.settings.profiling = false)
    (hnone : session.lastMetrics? = none) (actions : List (Action σ)) :
    (session.after actions).lastMetrics? = none := by
  induction actions generalizing session with
  | nil => exact hnone
  | cons action actions ih =>
    have heffect := session.effect_perform action
    exact ih (heffect.settings_eq ▸ hprofiling) (heffect.latest_of_plain hprofiling hnone)

/-- A session that was freed has no timings. -/
lemma lastMetrics?_free {session : Session σ} (hcoherent : session.Coherent) :
    (session.perform .free).session.lastMetrics? = none := by
  rw [perform, Session.free]
  split
  next hfreed => exact hcoherent.latest_eq_none (by rw [hfreed]; simp)
  next => rfl

/-- **Profiling**: two sessions of which only one times its passes give back the same in every
history, whatever their clocks show: the same results and faults, the same events with the same
private states, and the same contents, all but the timings. The one has no timings ever. The other
has those of its latest complete pass as long as it is ready, one for each function of the network
that it loaded and in table order; a pass that fails leaves them as they were, and freeing the
session drops them.

**Proof sketch.** Leaving timings out of a session leaves them out of all it does
(`perform_untimed`), and what is left of both sessions is the same. The timings that are kept are
those of `lastMetrics?_after`. -/
theorem profiling_adds_metrics (settings : Settings) (registry : Registry σ)
    (history : List (Action σ)) (clock : Nat → Nat → Nat) :
    let timed := Session.new { settings with profiling := true } registry
    let plain := Session.new { settings with profiling := false } registry
    let others := history.mapIdx fun i action => action.withReadings (clock i)
    (timed.trace history).map Exchange.untimed = (plain.trace others).map Exchange.untimed ∧
      (timed.after history).untimed = (plain.after others).untimed ∧
      (plain.after others).lastMetrics? = none ∧
      (timed.after history).lastMetrics? = timed.latestMetrics? history ∧
      (∀ bound, (timed.after history).ready? = some bound →
        ∃ loading descriptor network, .load loading descriptor ∈ history ∧
          Network.decode descriptor = .ok network ∧
          (bound.functions.map fun function => function.node) = network.nodes) ∧
      (∀ readings fault,
        ((timed.after history).perform (.forward readings)).answer = .done (.error fault) →
          ((timed.after history).perform (.forward readings)).session.lastMetrics? =
            (timed.after history).lastMetrics?) ∧
      ((timed.after history).perform .free).session.lastMetrics? = none := by
  intro timed plain others
  have hstart : timed.untimed = plain.untimed := rfl
  have hactions : others.map Action.untimed = history.map Action.untimed :=
    Action.map_untimed_withReadings history clock
  refine ⟨?_, ?_, lastMetrics?_of_plain rfl rfl others, lastMetrics?_after _ _ rfl history, ?_,
    fun readings fault => lastMetrics?_of_failed rfl history,
    lastMetrics?_free (coherent_after _ _ history)⟩
  · rw [← trace_untimed, ← trace_untimed, hstart, hactions]
  · rw [← after_map_untimed, ← after_map_untimed, hstart, hactions]
  · intro bound hbound
    obtain ⟨front, loading, descriptor, back, network, hhistory, -, hdecode, hserves⟩ :=
      exists_load_of_ready hbound
    exact ⟨loading, descriptor, network, by simp [hhistory], hdecode, hserves.nodes_eq⟩

/-- Takes every node, and executes it in one pass only. -/
def takingOnce : Resolver Nat := fun _ _ _ =>
  { resolution := .matched
    slot :=
      { execute := some fun call state =>
          if state = some 0 then ⟨call.inputs, some 1, .ok (), []⟩
          else ⟨call.inputs, state, .error (.failed "once"), []⟩
        state := some 0 }
    notes := [] }

/-- The second pass over two functions fails, and leaves the timings of the first one; without
timings there are none. -/
theorem failed_pass_twoSteps :
    let history : List (Action Nat) :=
      [.register .relu taking, .register .tanh takingOnce, .load 0 twoSteps.encode,
        .forward fun i => i * i]
    let timed := (Session.new { profiling := true } .empty).after history
    (timed.perform (.forward id)).answer =
        .done (.error (.failed ⟨1, .tanh, .failed "once"⟩)) ∧
      (timed.perform (.forward id)).session.lastMetrics? =
        some ⟨25, [⟨0, .relu, .override 0, 3⟩, ⟨1, .tanh, .override 0, 7⟩]⟩ ∧
      ((Session.new {} .empty).after history).lastMetrics? = none := by
  intro history timed
  have hfails : (timed.perform (.forward id)).answer =
      .done (.error (.failed ⟨1, .tanh, .failed "once"⟩)) := by
    have hresult : (timed.forward tick id).1.result =
        .error (.failed ⟨1, .tanh, .failed "once"⟩) := by decide +kernel
    exact congrArg Answer.done hresult
  have hkept : timed.lastMetrics? =
      some ⟨25, [⟨0, .relu, .override 0, 3⟩, ⟨1, .tanh, .override 0, 7⟩]⟩ := by decide +kernel
  obtain ⟨-, -, hnone, -, -, hfailed, -⟩ :=
    profiling_adds_metrics {} .empty history fun _ i => i * i
  exact ⟨hfails, (hfailed id _ hfails).trans hkept, hnone⟩

end Session

end Inference
