import Inference.Proofs.Dispatch.Declining
import Inference.Proofs.Session.Retrying
import Mathlib.Data.List.Induction

set_option autoImplicit false
set_option relaxedAutoImplicit false

/-!
# Sessions with an override that declines

An override that declines every node can be registered at any time before a network is loaded, in
any chain, and nothing that the host does with the session shows it, but for the positions of the
overrides behind it: answers, bindings, contents and timings are the same, and so are the calls of
all routines. What the decliner installs before it declines is never called.

Overrides of different operators can be registered in any order.

## Main definitions

* `Decliner.session`, `Decliner.answer` — a session with the decliner, and what it answers.
* `Action.nodes` — the nodes that an action can show to overrides.
* `Decliner.Unnoticed` — an exchange with a session, and the same one with the decliner.
* `Event.calls` — the calls of routines in a journal.
* `Exchange.told` — what a host is told by an exchange.
* `Decliner.Inserted` — a history with a decliner that is registered in it.

## Main results

* `Decliner.unnoticed_perform`, `Decliner.unnoticed_trace` — an action, and a history, with the
  decliner.
* `Session.exists_front_of_le_chainLength` — where in a history a position in a chain is taken.
* `Session.swap_registrations` — two registrations that are exchanged.
* `Session.decliner_unnoticed` — what a decliner and an exchange of registrations change.
-/

namespace Inference

variable {σ : Type}

namespace Decliner

/-! ## With the decliner -/

/-- A fault, told by where overrides stand with the decliner. -/
def fault (decliner : Decliner σ) : SessionFault → SessionFault
  | .unsupported op variant function reason =>
    .unsupported op variant function (decliner.reason op reason)
  | fault => fault

/-- A timing, told by where overrides stand with the decliner. -/
def timing (decliner : Decliner σ) (timing : Timing) : Timing :=
  { timing with source := decliner.source timing.op timing.source }

/-- Timings, told by where overrides stand with the decliner. -/
def metrics (decliner : Decliner σ) (metrics : Metrics) : Metrics :=
  { metrics with functions := metrics.functions.map decliner.timing }

/-- What a pass leaves with the decliner: the same contents, private states and failure. -/
def pass (decliner : Decliner σ) (pass : Pass σ) : Pass σ :=
  { pass with
    functions := pass.functions.map decliner.function
    metrics := pass.metrics.map decliner.metrics }

/-- A bound network with the decliner: it has the same variables, routines, private states and
contents. -/
def bound (decliner : Decliner σ) (bound : Bound σ) : Bound σ :=
  { bound with functions := bound.functions.map decliner.function }

/-- A session with the decliner in its dispatch table. -/
def session (decliner : Decliner σ) (session : Session σ) : Session σ :=
  { session with
    dispatch := decliner.dispatch session.dispatch
    held := session.held.map decliner.bound
    latest := session.latest.map decliner.metrics }

/-- What a session with the decliner answers to an action, if the bound functions are these. -/
def answer (decliner : Decliner σ) (functions : List (BoundNode σ)) : Action σ → Answer → Answer
  | .ask (.bindingSource index), .source (.ok source) =>
    .source (.ok ((functions[index]?.map fun function =>
      decliner.source function.node.op source).getD source))
  | _, .done (.error fault) => .done (.error (decliner.fault fault))
  | _, .metrics metrics => .metrics (metrics.map decliner.metrics)
  | _, answer => answer

end Decliner

/-- The nodes that an action can show to overrides: those of the network that it loads. -/
def Action.nodes : Action σ → List Node
  | .load _ descriptor =>
    match Network.decode descriptor with
    | .ok network => network.nodes
    | .error _ => []
  | _ => []

namespace Decliner

/-- An exchange with a session, and the exchange with the decliner in its place. -/
structure Unnoticed (decliner : Decliner σ) (old new : Exchange σ) : Prop where
  action_eq : new.action = old.action
  answer_eq : new.response.answer =
    decliner.answer old.response.session.functions old.action old.response.answer
  session_eq : new.response.session = decliner.session old.response.session
  journal : decliner.Asked old.action.nodes old.response.journal new.response.journal

variable {decliner : Decliner σ} {nodes : List Node}

/-! ## Faults that tell of no override -/

section

variable {α β : Type}

/-- Faults of one step after another are told as the faults of each. -/
lemma mapError_bind (tell : SessionFault → SessionFault) (result : Except SessionFault α)
    (next : α → Except SessionFault β) :
    (result >>= next).mapError tell =
      (result.mapError tell >>= fun value => (next value).mapError tell) := by
  cases result <;> rfl

/-- A missing value is told as its fault. -/
lemma mapError_orFault {tell : SessionFault → SessionFault} {fault : SessionFault}
    (h : tell fault = fault) (value : Option α) :
    (orFault value fault).mapError tell = orFault value fault := by
  cases value with
  | none => exact congrArg Except.error h
  | some value => rfl

end

/-- Refusals tell of no override. -/
lemma mapError_bound (decliner : Decliner σ) (session : Session σ) (operation : Operation) :
    (session.bound operation).mapError decliner.fault = session.bound operation :=
  mapError_orFault rfl _

/-- Missing arguments tell of no override. -/
lemma mapError_argument (decliner : Decliner σ) (bound : Bound σ) (side : Side) (index : Nat) :
    (bound.argument side index).mapError decliner.fault = bound.argument side index :=
  mapError_orFault rfl _

/-- Missing contents tell of no override. -/
lemma mapError_region (decliner : Decliner σ) (bound : Bound σ) (v : Variable) :
    (bound.region v).mapError decliner.fault = bound.region v :=
  mapError_orFault rfl _

/-- Contents of another type tell of no override. -/
lemma mapError_singles (decliner : Decliner σ) (bound : Bound σ) (v : Variable) :
    (bound.singles v).mapError decliner.fault = bound.singles v := by
  unfold Bound.singles
  split
  · rfl
  · show Except.mapError decliner.fault (bound.region v >>= fun bytes => orFault _ _) = _
    rw [mapError_bind, mapError_region]
    exact congrArg _ (funext fun bytes => mapError_orFault rfl _)

/-- Reading float values tells of no override. -/
lemma mapError_readSingles (decliner : Decliner σ) (session : Session σ) (side : Side)
    (index : Nat) :
    (session.readSingles side index).mapError decliner.fault = session.readSingles side index := by
  simp only [Session.readSingles, mapError_bind, mapError_bound, mapError_argument,
    mapError_singles]

/-- Writing tells of no override. -/
lemma mapError_write (decliner : Decliner σ) (session : Session σ) (side : Side)
    (index offset : Nat) (bytes : Bytes) :
    (session.write side index offset bytes).mapError decliner.fault =
      session.write side index offset bytes := by
  simp only [Session.write, mapError_bind, mapError_bound, mapError_argument, mapError_region]
  rfl

/-- Writing float values tells of no override. -/
lemma mapError_writeInputSingles (decliner : Decliner σ) (session : Session σ) (index : Nat)
    (values : List Single) :
    (session.writeInputSingles index values).mapError decliner.fault =
      session.writeInputSingles index values := by
  simp only [Session.writeInputSingles, mapError_bind, mapError_readSingles, mapError_write]

/-- Registering tells of no override. -/
lemma mapError_register (decliner : Decliner σ) (session : Session σ) (op : Operator)
    (resolver : Resolver σ) :
    (session.register op resolver).mapError decliner.fault = session.register op resolver := by
  unfold Session.register
  cases session.stage <;> rfl

/-! ## Passes and releases -/

/-- A pass does the same with the decliner. -/
lemma walk_map_function (decliner : Decliner σ) (functions : List (BoundNode σ))
    (contents : Contents) :
    Engine.walk (functions.map decliner.function) contents =
      decliner.pass (Engine.walk functions contents) := by
  induction functions generalizing contents with
  | nil => rfl
  | cons function rest ih =>
    have hresult : ((decliner.function function).execute contents).result =
        (function.execute contents).result := rfl
    rw [List.map_cons]
    cases hturn : (function.execute contents).result with
    | error fault =>
      rw [Engine.walk_cons_error hturn, Engine.walk_cons_error (hresult.trans hturn)]
      rfl
    | ok _ =>
      have hcontents : ((decliner.function function).execute contents).contents =
          (function.execute contents).contents := rfl
      rw [Engine.walk_cons_ok hturn, Engine.walk_cons_ok (hresult.trans hturn), hcontents, ih]
      rfl

/-- Functions are timed the same with the decliner. -/
lemma timings_map_function (decliner : Decliner σ) (functions : List (BoundNode σ))
    (readings : Nat → Nat) :
    Engine.timings (functions.map decliner.function) readings =
      (Engine.timings functions readings).map decliner.timing := by
  apply List.ext_getElem?
  intro i
  simp only [Engine.timings, List.getElem?_mapIdx, List.getElem?_map, Option.map_map]
  rfl

/-- Functions are released the same with the decliner. -/
lemma releaseAll_map_function (decliner : Decliner σ) (functions : List (BoundNode σ)) :
    BoundNode.releaseAll (functions.map decliner.function) = BoundNode.releaseAll functions := by
  rw [BoundNode.releaseAll, BoundNode.releaseAll, List.flatMap_map]
  rfl

/-- A pass asks no override. -/
lemma asked_walk (functions : List (BoundNode σ)) (contents : Contents) :
    decliner.Asked nodes (Engine.walk functions contents).journal
      (Engine.walk functions contents).journal := by
  induction functions generalizing contents with
  | nil => exact .nil
  | cons function rest ih =>
    obtain ⟨notes, hjournal⟩ := exists_execute_journal_eq function contents
    have hturn : decliner.Asked nodes (function.execute contents).journal
        (function.execute contents).journal := by
      rw [hjournal]
      exact .executed _ _ (.notes notes)
    cases hresult : (function.execute contents).result with
    | error fault =>
      rw [Engine.walk_cons_error hresult]
      exact hturn
    | ok _ =>
      rw [Engine.walk_cons_ok hresult]
      exact hturn.append (ih _)

/-- Releasing asks no override. -/
lemma asked_releaseAll (functions : List (BoundNode σ)) :
    decliner.Asked nodes (BoundNode.releaseAll functions) (BoundNode.releaseAll functions) := by
  induction functions with
  | nil => exact .nil
  | cons function rest ih =>
    have hhead : decliner.Asked nodes function.release function.release := by
      unfold BoundNode.release
      split
      · exact .nil
      · exact .released _ _ _ (.notes _)
    rw [BoundNode.releaseAll, List.flatMap_cons]
    exact hhead.append ih

/-! ## Actions -/

/-- A session with the decliner is ready with the same network, told with the decliner. -/
lemma ready?_session (decliner : Decliner σ) (session : Session σ) :
    (decliner.session session).ready? = session.ready?.map decliner.bound := by
  obtain ⟨settings, stage, dispatch, held, latest⟩ := session
  cases held <;> cases stage <;> rfl

/-- A session with the decliner is given up the same. -/
lemma close_session (decliner : Decliner σ) (session : Session σ) :
    (decliner.session session).close = session.close := by
  obtain ⟨settings, stage, dispatch, held, latest⟩ := session
  cases held with
  | none => rfl
  | some bound => exact releaseAll_map_function decliner bound.functions

/-- Giving up a session asks no override. -/
lemma asked_close (session : Session σ) : decliner.Asked nodes session.close session.close := by
  rw [Session.close_eq]
  exact asked_releaseAll session.functions

/-- A bound network is passed over the same with the decliner. -/
lemma walk_bound (decliner : Decliner σ) (bound : Bound σ) :
    (decliner.bound bound).walk = decliner.pass bound.walk :=
  walk_map_function decliner bound.functions bound.arena.split

/-- A pass collects the same with the decliner.

**Proof sketch.** Without profiling, and where the pass fails, there is nothing; otherwise there is
one timing for each function (`Engine.metrics_run_of_complete`). -/
lemma metrics_pass (decliner : Decliner σ) (session : Session σ) (bound : Bound σ)
    (readings : Nat → Nat) :
    ((decliner.session session).pass (decliner.bound bound) readings).metrics =
      (session.pass bound readings).metrics.map decliner.metrics := by
  have hfailure : (Engine.walk (decliner.bound bound).functions
      (decliner.bound bound).arena.split).failure =
        (Engine.walk bound.functions bound.arena.split).failure := by
    rw [← Bound.walk, walk_bound]
    rfl
  have hsettings : (decliner.session session).settings = session.settings := rfl
  rw [Session.pass, Session.pass, hsettings]
  cases session.settings.profiling with
  | false => rw [Engine.metrics_run_plain, Engine.metrics_run_plain, Option.map_none]
  | true =>
    by_cases hcomplete : (Engine.walk bound.functions bound.arena.split).failure = none
    · rw [Engine.metrics_run_of_complete hcomplete,
        Engine.metrics_run_of_complete (hfailure.trans hcomplete)]
      simp only [Decliner.bound, timings_map_function, List.length_map]
      rfl
    · rw [Engine.metrics_run_of_failure hcomplete,
        Engine.metrics_run_of_failure (hfailure ▸ hcomplete), Option.map_none]

/-- A node that cannot be bound is named in the fault. -/
lemma fault_ofBinding (decliner : Decliner σ) (node : Node) (fault : BindingFault) :
    decliner.fault (.ofBinding node fault) =
      .ofBinding node (decliner.bindingFault node.op fault) := by
  cases fault <;> rfl

/-- Replies of an operation, the second one with the decliner. -/
structure SameReply (decliner : Decliner σ) (nodes : List Node) (old new : Reply σ Unit) :
    Prop where
  result_eq : new.result = old.result.mapError decliner.fault
  session_eq : new.session = decliner.session old.session
  journal : decliner.Asked nodes old.journal new.journal

/-- An answer that something was done, or why not, only differs in its fault. -/
lemma answer_done (decliner : Decliner σ) (functions : List (BoundNode σ)) (action : Action σ)
    (result : Except SessionFault Unit) :
    decliner.answer functions action (.done result) = .done (result.mapError decliner.fault) := by
  unfold Decliner.answer
  cases result <;> split <;> simp_all [Except.mapError]

/-- An operation whose replies are the same is not noticed to be different. -/
lemma SameReply.unnoticed {action : Action σ} {old new : Reply σ Unit}
    (h : decliner.SameReply action.nodes old new) :
    decliner.Unnoticed ⟨action, Session.replied old⟩ ⟨action, Session.replied new⟩ where
  action_eq := rfl
  answer_eq := by rw [Session.replied, Session.replied, answer_done, h.result_eq]
  session_eq := h.session_eq
  journal := h.journal

/-- An operation that gives the same session, or the same fault, is not noticed to be different. -/
lemma unnoticed_updated {session : Session σ} {action : Action σ}
    {old new : Except SessionFault (Session σ)} (hnew : new = old.map decliner.session)
    (hfault : old.mapError decliner.fault = old) :
    decliner.Unnoticed ⟨action, session.updated old⟩
      ⟨action, (decliner.session session).updated new⟩ := by
  subst hnew
  cases old with
  | ok next => exact ⟨rfl, (answer_done decliner _ action (.ok ())).symm, rfl, .nil⟩
  | error fault =>
    have hsame : decliner.fault fault = fault := Except.error.inj hfault
    have hanswer := answer_done decliner session.functions action (.error fault)
    rw [Except.mapError, hsame] at hanswer
    exact ⟨rfl, hanswer.symm, rfl, .nil⟩

/-- Overrides that are registered later stand behind the decliner. -/
lemma register_session {session : Session σ}
    (h : decliner.position ≤ session.dispatch.chainLength decliner.op) (op : Operator)
    (resolver : Resolver σ) :
    (decliner.session session).register op resolver =
      (session.register op resolver).map decliner.session := by
  obtain ⟨settings, stage, dispatch, held, latest⟩ := session
  cases stage with
  | configuring =>
    simp only [Session.register, Decliner.session, register_dispatch h]
    rfl
  | ready | freed => rfl

/-- A descriptor is loaded the same with the decliner, or refused the same. -/
lemma sameReply_load {session : Session σ}
    (h : decliner.position ≤ session.dispatch.chainLength decliner.op) (loading : Nat)
    (descriptor : Bytes) :
    decliner.SameReply (Action.load loading descriptor : Action σ).nodes
      (session.load loading descriptor) ((decliner.session session).load loading descriptor) := by
  have hstage : (decliner.session session).stage = session.stage := rfl
  have hsettings : (decliner.session session).settings = session.settings := rfl
  have hdispatch : (decliner.session session).dispatch = decliner.dispatch session.dispatch := rfl
  unfold Session.load
  rw [hstage, hsettings]
  simp only [Action.nodes]
  cases session.stage with
  | ready | freed => exact ⟨by rw [Session.refusal, hstage]; rfl, rfl, .nil⟩
  | configuring =>
    cases session.settings.budget with
    | error fault => exact ⟨rfl, rfl, .nil⟩
    | ok budget =>
      cases Network.decode descriptor with
      | error fault => exact ⟨rfl, rfl, .nil⟩
      | ok network =>
        obtain ⟨hfunctions, hfailure, hjournal⟩ := bindAll_dispatch loading h network.nodes
        have hundone := hjournal.append
          (asked_releaseAll (session.dispatch.bindAll loading network.nodes).functions)
        simp only [Session.bind, hdispatch, hfunctions, hfailure, releaseAll_map_function]
        cases (session.dispatch.bindAll loading network.nodes).failure with
        | some failure =>
          exact ⟨congrArg Except.error (fault_ofBinding decliner _ _).symm, rfl, hundone⟩
        | none =>
          cases network.arena budget with
          | error fault => exact ⟨rfl, rfl, hundone⟩
          | ok arena =>
            refine ⟨rfl, rfl, ?_⟩
            rw [close_session]
            exact hjournal.append (asked_close session)

/-- A pass does the same with the decliner, and fails the same. -/
lemma sameReply_forward (decliner : Decliner σ) (session : Session σ) (readings : Nat → Nat) :
    decliner.SameReply nodes (session.forward tick readings).1
      ((decliner.session session).forward tick readings).1 := by
  have hready' := ready?_session decliner session
  cases hready : session.ready? with
  | none =>
    rw [hready] at hready'
    rw [Session.forward_of_not_ready hready, Session.forward_of_not_ready hready']
    exact ⟨rfl, rfl, .nil⟩
  | some bound =>
    rw [hready] at hready'
    have hresult (failure : Option Failure) :
        Session.passResult failure = (Session.passResult failure).mapError decliner.fault := by
      cases failure <;> rfl
    rw [Session.forward_of_ready hready, Session.forward_of_ready hready', walk_bound,
      metrics_pass]
    refine ⟨hresult _, ?_, asked_walk _ _⟩
    simp only [Decliner.session, Option.map_or]
    rfl

/-- The decliner leaves contents alone. -/
lemma leavesContents_session (decliner : Decliner σ) : Session.LeavesContents decliner.session where
  stage_eq _ := rfl
  ready session bound hready := by
    refine ⟨decliner.bound bound, ?_, ⟨rfl, rfl, rfl⟩, fun _ => rfl⟩
    rw [ready?_session, hready, Option.map_some]
  not_ready session hready := by rw [ready?_session, hready, Option.map_none]

/-- A question is answered the same with the decliner. -/
lemma answer_session (decliner : Decliner σ) (session : Session σ) (question : Question) :
    (decliner.session session).answer question =
      decliner.answer session.functions (.ask question) (session.answer question) := by
  have hready' := ready?_session decliner session
  have hrefusal (operation : Operation) :
      (decliner.session session).refusal operation = session.refusal operation := rfl
  cases question with
  | count | argument | elementCount | byteSize | contents | singles =>
    exact (leavesContents_session decliner).answer_eq session trivial
  | metrics => rfl
  | functionCount =>
    simp only [Session.answer, Session.functionCount, Session.bound, hready', hrefusal]
    cases session.ready? with
    | none => rfl
    | some bound => exact congrArg (Answer.number ∘ Except.ok) (List.length_map _)
  | bindingSource index =>
    simp only [Session.answer, Session.bindingSource, Session.bound, hready', hrefusal]
    cases hready : session.ready? with
    | none => rfl
    | some bound =>
      rw [Session.functions_of_ready hready]
      simp only [Decliner.bound, orFault, Option.map_some, List.getElem?_map, List.length_map,
        Bind.bind, Except.bind]
      cases hfunction : bound.functions[index]? with
      | none => rfl
      | some function =>
        have hanswer : decliner.answer bound.functions (.ask (.bindingSource index))
            (.source (.ok function.source)) =
              .source (.ok ((bound.functions[index]?.map fun function' =>
                decliner.source function'.node.op function.source).getD function.source)) := rfl
        rw [hfunction] at hanswer
        exact hanswer.symm

/-- Freeing releases the same with the decliner. -/
lemma sameReply_free (decliner : Decliner σ) (session : Session σ) :
    decliner.SameReply nodes session.free (decliner.session session).free := by
  have hstage : (decliner.session session).stage = session.stage := rfl
  unfold Session.free
  rw [hstage, close_session]
  cases session.stage with
  | freed => exact ⟨by rw [Session.refusal, hstage]; rfl, rfl, .nil⟩
  | configuring | ready => exact ⟨rfl, rfl, asked_close session⟩

/-- **Actions**: an action is answered the same with the decliner, and does the same, up to where
overrides stand.

**Proof sketch.** By cases on the action. Loading binds the same network
(`bindAll_dispatch`), and passes and accesses do not look at overrides at all. -/
theorem unnoticed_perform {session : Session σ}
    (h : decliner.position ≤ session.dispatch.chainLength decliner.op) (action : Action σ) :
    decliner.Unnoticed ⟨action, session.perform action⟩
      ⟨action, (decliner.session session).perform action⟩ := by
  cases action with
  | register op resolver =>
    exact unnoticed_updated (register_session h op resolver)
      (mapError_register decliner session op resolver)
  | load loading descriptor => exact (sameReply_load h loading descriptor).unnoticed
  | forward readings => exact (sameReply_forward decliner session readings).unnoticed
  | write side index offset bytes =>
    exact unnoticed_updated ((leavesContents_session decliner).write_eq session ..)
      (mapError_write decliner session ..)
  | writeSingles index values =>
    exact unnoticed_updated ((leavesContents_session decliner).writeInputSingles_eq session ..)
      (mapError_writeInputSingles decliner session ..)
  | ask question => exact ⟨rfl, answer_session decliner session question, rfl, .nil⟩
  | free => exact (sameReply_free decliner session).unnoticed

end Decliner

/-! ## Histories -/

/-- The chains of a session that does not register an override stay as they are, and otherwise one
of them grows by one. -/
lemma Effect.chainLength_eq {session next : Session σ} {journal : List (Event σ)}
    (h : Effect session next journal) (op : Operator) :
    next.dispatch.chainLength op = session.dispatch.chainLength op ∨
      next.stage = .configuring ∧
        next.dispatch.chainLength op = session.dispatch.chainLength op + 1 := by
  cases h with
  | registered other resolver hstage =>
    simp only [Dispatch.chainLength, Dispatch.chain_register]
    by_cases hop : op = other
    · subst hop
      rw [Function.update_self, List.length_append, List.length_singleton]
      exact .inr ⟨hstage, rfl⟩
    · rw [Function.update_of_ne hop]
      exact .inl rfl
  | _ => exact .inl rfl

/-- Any position in a chain is the end of the chain at some time while the session is
configuring. -/
lemma Session.exists_front_of_le_chainLength (settings : Settings) (registry : Registry σ)
    (op : Operator) {history : List (Action σ)} {position : Nat}
    (h : position ≤ ((Session.new settings registry).after history).dispatch.chainLength op) :
    ∃ front back, history = front ++ back ∧
      ((Session.new settings registry).after front).stage = .configuring ∧
      position = ((Session.new settings registry).after front).dispatch.chainLength op := by
  induction history using List.reverseRecOn with
  | nil => exact ⟨[], [], rfl, rfl, Nat.le_zero.mp h⟩
  | append_singleton history action ih =>
    by_cases hbefore : position ≤
        ((Session.new settings registry).after history).dispatch.chainLength op
    · obtain ⟨front, back, rfl, hstage, hposition⟩ := ih hbefore
      exact ⟨front, back ++ [action], List.append_assoc .., hstage, hposition⟩
    · refine ⟨history ++ [action], [], (List.append_nil _).symm, ?_⟩
      rw [after_append, after, after] at h ⊢
      obtain heq | ⟨hstage, heq⟩ :=
        (((Session.new settings registry).after history).effect_perform action).chainLength_eq op
      · exact absurd (heq ▸ h) hbefore
      · exact ⟨hstage, by omega⟩

namespace Decliner

variable {decliner : Decliner σ}

/-- **Histories**: a history goes the same with the decliner, up to where overrides stand.

**Proof sketch.** Induction on the history. Chains do not become shorter, so that the decliner
stays where it stands. -/
theorem unnoticed_trace {session : Session σ}
    (h : decliner.position ≤ session.dispatch.chainLength decliner.op)
    (actions : List (Action σ)) :
    List.Forall₂ decliner.Unnoticed (session.trace actions)
        ((decliner.session session).trace actions) ∧
      (decliner.session session).after actions = decliner.session (session.after actions) ∧
      decliner.Asked (actions.flatMap Action.nodes) (session.events actions)
        ((decliner.session session).events actions) := by
  induction actions generalizing session with
  | nil => exact ⟨.nil, rfl, .nil⟩
  | cons action actions ih =>
    have hexchange := unnoticed_perform h action
    have hsession : ((decliner.session session).perform action).session =
        decliner.session (session.perform action).session := hexchange.session_eq
    have hlength : decliner.position ≤
        (session.perform action).session.dispatch.chainLength decliner.op := by
      obtain heq | ⟨-, heq⟩ := (session.effect_perform action).chainLength_eq decliner.op <;> omega
    obtain ⟨htrace, hafter, hevents⟩ := ih hlength
    rw [Session.trace, Session.trace, Session.after, Session.after, Session.events, Session.events,
      hsession, List.flatMap_cons]
    refine ⟨.cons hexchange htrace, hafter, ?_⟩
    exact (hexchange.journal.mono (List.subset_append_left ..)).append
      (hevents.mono (List.subset_append_right ..))

end Decliner

/-! ## Calls -/

/-- Whether a routine was called: an execute routine or a release routine. -/
def Event.isCall : Event σ → Bool
  | .executed _ _ => true
  | .released _ _ _ => true
  | _ => false

/-- The calls of routines in a journal. -/
def Event.calls (journal : List (Event σ)) : List (Event σ) :=
  journal.filter Event.isCall

@[simp]
lemma calls_append (front back : List (Event σ)) :
    Event.calls (front ++ back) = Event.calls front ++ Event.calls back :=
  List.filter_append _ _

/-- Asking the decliner calls no routine. -/
lemma Decliner.Asked.calls_eq {decliner : Decliner σ} {nodes : List Node}
    {old new : List (Event σ)} (h : decliner.Asked nodes old new) :
    Event.calls new = Event.calls old := by
  induction h with
  | nil => rfl
  | @asked node old new loading _ _ _ ih =>
    have hnotes : ((decliner.resolver loading node .empty).notes.map .note).filter Event.isCall =
        ([] : List (Event σ)) := by
      rw [List.filter_eq_nil_iff]
      intro event hevent
      obtain ⟨text, -, rfl⟩ := List.mem_map.mp hevent
      exact Bool.false_ne_true
    rw [Event.calls, List.cons_append, List.filter_cons_of_neg Bool.false_ne_true,
      List.filter_append, hnotes, List.nil_append]
    exact ih
  | tried | bound | note =>
    rw [Event.calls, Event.calls, List.filter_cons_of_neg Bool.false_ne_true,
      List.filter_cons_of_neg Bool.false_ne_true]
    assumption
  | executed | released =>
    rw [Event.calls, Event.calls, List.filter_cons_of_pos rfl, List.filter_cons_of_pos rfl]
    apply congrArg
    assumption

/-- What the decliner installs has no part in what happens. -/
lemma Decliner.events_registration (decliner : Decliner σ) (session : Session σ)
    (front back : List (Action σ)) :
    session.events
        (front ++ .register decliner.op (Resolver.discarding decliner.resolver) :: back) =
      session.events (front ++ .register decliner.op decliner.resolver :: back) := by
  have hempty : Resolver.discarding (Resolver.discarding decliner.resolver) =
      Resolver.discarding decliner.resolver := by
    funext loading node slot
    simp only [Resolver.discarding, decliner.declines]
  rw [← (session.events_discarding _).1, ← (session.events_discarding (_ ++ _ :: back)).1]
  simp only [List.map_append, List.map_cons, Action.discarding, hempty]

/-! ## Registrations -/

/-- What a host is told by an exchange: the answer, and what happened on the way. -/
def Exchange.told (exchange : Exchange σ) : Answer × List (Event σ) :=
  (exchange.response.answer, exchange.response.journal)

namespace Session

/-- **Exchanged registrations**: two registrations of overrides for different operators, one right
after the other, can be exchanged anywhere in a history.

**Proof sketch.** The session is the same after both (`Dispatch.register_comm`), so what follows is
the same; and both are answered the same, since that depends on the stage only. -/
theorem swap_registrations (session : Session σ) {op other : Operator} (h : op ≠ other)
    (resolver resolver' : Resolver σ) (front back : List (Action σ)) :
    let history := front ++ .register op resolver :: .register other resolver' :: back
    let swapped := front ++ .register other resolver' :: .register op resolver :: back
    session.after swapped = session.after history ∧
      (session.trace swapped).map Exchange.told = (session.trace history).map Exchange.told := by
  intro history swapped
  have hpair (session : Session σ) :
      session.after [.register other resolver', .register op resolver] =
          session.after [.register op resolver, .register other resolver'] ∧
        (session.trace [.register other resolver', .register op resolver]).map Exchange.told =
          (session.trace [.register op resolver, .register other resolver']).map
            Exchange.told := by
    obtain ⟨settings, stage, dispatch, held, latest⟩ := session
    cases stage with
    | configuring =>
      refine ⟨?_, rfl⟩
      simp only [after, perform, register, updated, Dispatch.register_comm dispatch h]
    | ready | freed => exact ⟨rfl, rfl⟩
  obtain ⟨hafter, htold⟩ := hpair (session.after front)
  have hhistory : history =
      front ++ ([.register op resolver, .register other resolver'] ++ back) := rfl
  have hswapped : swapped =
      front ++ ([.register other resolver', .register op resolver] ++ back) := rfl
  rw [hhistory, hswapped]
  constructor
  · rw [after_append, after_append, hafter, after_append, after_append]
  · simp only [trace_append, List.map_append, hafter, htold]

end Session

/-! ## Insertions -/

/-- What a history is with a decliner that is registered in it, against the history without it. -/
structure Decliner.Inserted (decliner : Decliner σ) (start : Session σ)
    (front back : List (Action σ)) : Prop where
  /-- The registration succeeds, and puts the decliner where it stands. -/
  trace_eq : start.trace (front ++ .register decliner.op decliner.resolver :: back) =
    start.trace front ++
      ⟨.register decliner.op decliner.resolver,
        ⟨.done (.ok ()), decliner.session (start.after front), []⟩⟩ ::
      (decliner.session (start.after front)).trace back
  /-- What comes later gives back what it gave back. -/
  exchanges : List.Forall₂ decliner.Unnoticed ((start.after front).trace back)
    ((decliner.session (start.after front)).trace back)
  /-- In the end the same network is bound, with the same contents and private states. -/
  after_eq : start.after (front ++ .register decliner.op decliner.resolver :: back) =
    decliner.session (start.after (front ++ back))
  /-- The same routines are called, those that are called when the session is given up among
  them. -/
  calls_eq :
    Event.calls (start.events (front ++ .register decliner.op decliner.resolver :: back) ++
        (start.after (front ++ .register decliner.op decliner.resolver :: back)).close) =
      Event.calls (start.events (front ++ back) ++ (start.after (front ++ back)).close)
  /-- The decliner could as well have installed nothing. -/
  events_eq : start.events
      (front ++ .register decliner.op (Resolver.discarding decliner.resolver) :: back) =
    start.events (front ++ .register decliner.op decliner.resolver :: back)

namespace Decliner

variable {decliner : Decliner σ}

/-- A decliner that is registered while the session is configuring stands at the end of its
chain. -/
lemma perform_registration {session : Session σ} (hcoherent : session.Coherent)
    (hstage : session.stage = .configuring)
    (hposition : decliner.position = session.dispatch.chainLength decliner.op) :
    session.perform (.register decliner.op decliner.resolver) =
      ⟨.done (.ok ()), decliner.session session, []⟩ := by
  have hchain : (session.dispatch.chain decliner.op).insertIdx decliner.position decliner.resolver =
      session.dispatch.chain decliner.op ++ [decliner.resolver] := by
    rw [hposition]
    exact List.insertIdx_length_self ..
  have hheld := hcoherent.held_eq_none (by rw [hstage]; simp)
  have hlatest := hcoherent.latest_eq_none (by rw [hstage]; simp)
  simp only [Session.perform, Session.register, hstage, Session.updated, Decliner.session,
    Decliner.dispatch, hchain, hheld, hlatest]
  rfl

/-- A history goes the same with a decliner that is registered in it. -/
lemma inserted {start : Session σ} {front : List (Action σ)}
    (hcoherent : (start.after front).Coherent)
    (hstage : (start.after front).stage = .configuring)
    (hposition : decliner.position = (start.after front).dispatch.chainLength decliner.op)
    (back : List (Action σ)) : decliner.Inserted start front back := by
  have hperform := perform_registration hcoherent hstage hposition
  obtain ⟨hexchanges, hafter, hevents⟩ := unnoticed_trace (Nat.le_of_eq hposition) back
  have hlast : start.after (front ++ .register decliner.op decliner.resolver :: back) =
      decliner.session (start.after (front ++ back)) := by
    rw [Session.after_append, Session.after, hperform, hafter, Session.after_append]
  refine ⟨?_, hexchanges, hlast, ?_, decliner.events_registration start front back⟩
  · rw [Session.trace_append, Session.trace, hperform]
  · rw [hlast, close_session, Session.events_append, Session.events, hperform,
      Session.events_append, List.nil_append]
    simp only [calls_append, hevents.calls_eq]

end Decliner

/-- **Decliners**: an override that declines every node, whatever it installs, can be registered at
any time while the session is configuring, and so at any position in any chain. Whatever the host
does is answered as it was without it, but for the positions of the overrides behind it, which are
one higher; the same routines are called on the same private states, and the same network is bound
with the same contents. The decliner could as well have installed nothing. And two registrations
for different operators can be exchanged: the host is told the same in the whole history, and the
session at its end is the same.

**Proof sketch.** An action goes the same in a session with the decliner as without it
(`Decliner.unnoticed_perform`), since a node is bound to the same implementation
(`Decliner.resolve_dispatch`): each override is shown an empty slot, whatever those before it did
with theirs. -/
theorem Session.decliner_unnoticed (settings : Settings) (registry : Registry σ) :
    let start := Session.new settings registry
    (∀ (history : List (Action σ)) (op : Operator),
      ∀ position ≤ (start.after history).dispatch.chainLength op,
        ∃ front back, history = front ++ back ∧ (start.after front).stage = .configuring ∧
          position = (start.after front).dispatch.chainLength op) ∧
    (∀ (front back : List (Action σ)) (decliner : Decliner σ),
      (start.after front).stage = .configuring →
      decliner.position = (start.after front).dispatch.chainLength decliner.op →
        decliner.Inserted start front back) ∧
    ∀ (front back : List (Action σ)) (op other : Operator) (resolver resolver' : Resolver σ),
      op ≠ other →
        let history := front ++ .register op resolver :: .register other resolver' :: back
        let swapped := front ++ .register other resolver' :: .register op resolver :: back
        start.after swapped = start.after history ∧
          (start.trace swapped).map Exchange.told = (start.trace history).map Exchange.told := by
  intro start
  refine ⟨fun _ op _ h => exists_front_of_le_chainLength settings registry op h, ?_, ?_⟩
  · intro front back decliner hstage hposition
    exact decliner.inserted (coherent_after settings registry front) hstage hposition back
  · intro front back op other resolver resolver' h
    exact start.swap_registrations h resolver resolver' front back

/-- Fills a slot as if it took the node, and declines it. -/
def fillingDecliner : Decliner Nat where
  op := .relu
  position := 0
  resolver := fun loading node slot =>
    { Session.taking loading node slot with resolution := .declined }
  declines := fun _ _ _ => rfl

/-- Behind an override that fills a slot and declines, the one that takes the node is reported at
the second position; what else happens is the same. -/
theorem Session.filling_declined_twoSteps :
    let start := Session.new {} .empty
    let back : List (Action Nat) :=
      [.register .relu taking, .register .tanh taking, .load 0 twoSteps.encode, .forward id]
    (start.after back).bindingSource 0 = .ok (.override 0) ∧
      (start.after (.register .relu fillingDecliner.resolver :: back)).bindingSource 0 =
        .ok (.override 1) ∧
      fillingDecliner.Inserted start [] back := by
  intro start back
  obtain ⟨-, hinserted, -⟩ := Session.decliner_unnoticed (σ := Nat) {} .empty
  exact ⟨by decide +kernel, by decide +kernel, hinserted [] back fillingDecliner rfl rfl⟩

end Inference
