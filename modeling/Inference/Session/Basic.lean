import Inference.Descriptor.Decode
import Inference.Session.Fault

set_option autoImplicit false
set_option relaxedAutoImplicit false

/-!
# Sessions

A session owns one network from the moment it is bound until it is released. It starts out
configuring, when overrides can be registered; loading a descriptor makes it ready; freeing it is
final. An operation that the stage does not allow, or that fails, leaves the session as it was;
only a failing pass keeps what was written until it stopped.

The stage, the bound network and the timings of the latest pass are kept side by side. Every
operation guards itself by what it needs of them, and sets those that it changes.

## Main definitions

* `Session`, `Bound` — a session, and a bound network.
* `Session.ready?` — the bound network, where the stage allows its use.
* `Session.register`, `Session.load`, `Session.forward`, `Session.free` — its life.
* `Session.close` — what happens when a session is given up.
* `Reply` — result, session and journal of an operation with effects.
-/

namespace Inference

/-- A network that is bound: every function has its implementation and every variable its
region. -/
structure Bound (σ : Type) where
  /-- The variables that the host fills. -/
  inputs : List Variable
  /-- The variables that the host reads. -/
  outputs : List Variable
  functions : List (BoundNode σ)
  arena : Arena

/-- The bound network after a pass: the private states and the contents that the pass left. -/
def Bound.after {σ : Type} (bound : Bound σ) (pass : Pass σ) : Bound σ :=
  { bound with functions := pass.functions, arena := bound.arena.join pass.contents }

/-- A session. -/
structure Session (σ : Type) where
  settings : Settings
  stage : Stage
  dispatch : Dispatch σ
  /-- The network that is bound, if there is one. -/
  held : Option (Bound σ)
  /-- The timings of the latest complete pass, if passes are timed. -/
  latest : Option Metrics

/-- What an operation with effects gives back. -/
structure Reply (σ α : Type) where
  result : Except SessionFault α
  session : Session σ
  journal : List (Event σ)

/-! ## Loading -/

/-- The nodes of a network, in table order. -/
def Network.nodes (network : Network) : List Node :=
  network.functions.map network.node

/-- The arena with the initial data of a variable in its region, if the descriptor holds any. -/
def Network.fillRegion (network : Network) (arena : Arena) (v : Variable) : Arena :=
  match network.parameterData? v with
  | some data => arena.write v.index 0 data
  | none => arena

/-- An arena with one region for each variable: zeroed, or filled with the initial data. -/
def Network.arena (network : Network) (budget : Budget) : Except ArenaFault Arena :=
  (Arena.allocate (network.variableTable.map Variable.byteSize) budget).map fun arena =>
    network.variableTable.foldl network.fillRegion arena

namespace Session

variable {σ : Type}

/-- A new session. -/
def new (settings : Settings) (registry : Registry σ) : Session σ where
  settings := settings
  stage := .configuring
  dispatch := .empty registry settings.builtinVariant
  held := none
  latest := none

/-- The fault of an operation that the stage does not allow. -/
def refusal (session : Session σ) (operation : Operation) : SessionFault :=
  .invalidState operation session.stage

/-- The bound network of a session that is ready: there must be one, and the stage must be the
right one. -/
def ready? (session : Session σ) : Option (Bound σ) :=
  match session.held, session.stage with
  | some bound, .ready => some bound
  | _, _ => none

/-- What happens to the functions of a session when the network that it holds is given up. -/
def close (session : Session σ) : List (Event σ) :=
  match session.held with
  | some bound => BoundNode.releaseAll bound.functions
  | none => []

/-- The session with one more override at the end of the chain of an operator. -/
def register (session : Session σ) (op : Operator) (resolver : Resolver σ) :
    Except SessionFault (Session σ) :=
  match session.stage with
  | .configuring => .ok { session with dispatch := session.dispatch.register op resolver }
  | _ => .error (session.refusal .register)

/-- Binds a network: every node in table order, and then the store. If that fails, the nodes
bound so far are released in table order. -/
def bind (session : Session σ) (budget : Budget) (loading : Nat) (network : Network) :
    Reply σ Unit :=
  let nodes := session.dispatch.bindAll loading network.nodes
  let undo (fault : SessionFault) : Reply σ Unit :=
    ⟨.error fault, session, nodes.journal ++ BoundNode.releaseAll nodes.functions⟩
  match nodes.failure with
  | some (node, fault) => undo (.ofBinding node fault)
  | none =>
    match network.arena budget with
    | .error fault => undo (.memory fault)
    | .ok arena =>
      let bound : Bound σ :=
        { inputs := network.select network.inputs
          outputs := network.select network.outputs
          functions := nodes.functions
          arena := arena }
      ⟨.ok (), { session with held := some bound, stage := .ready },
        nodes.journal ++ session.close⟩

/-- Reads a descriptor and binds its network. The host numbers its loadings, for the overrides. -/
def load (session : Session σ) (loading : Nat) (descriptor : Bytes) : Reply σ Unit :=
  match session.stage with
  | .configuring =>
    match session.settings.budget with
    | .error fault => ⟨.error (.settings fault), session, []⟩
    | .ok budget =>
      match Network.decode descriptor with
      | .error fault => ⟨.error (.malformed fault), session, []⟩
      | .ok network => session.bind budget loading network
  | _ => ⟨.error (session.refusal .load), session, []⟩

/-! ## Passes -/

/-- The session after a pass over the network that it holds. Only a pass that gives out metrics
replaces those of an earlier one. -/
def passed (session : Session σ) (bound : Bound σ) (pass : Pass σ) : Session σ :=
  { session with held := some (bound.after pass), latest := pass.metrics.or session.latest }

/-- The result of a pass. -/
def passResult (failure : Option Failure) : Except SessionFault Unit :=
  match failure with
  | some failure => .error (.failed failure)
  | none => .ok ()

/-- Executes every function once, in table order, up to the first that fails. -/
def forward {m : Type → Type} [Monad m] (now : m Nat) (session : Session σ) :
    m (Reply σ Unit) :=
  match session.ready? with
  | some bound => do
    let pass ← Engine.run now session.settings.profiling bound.functions bound.arena.split
    return ⟨passResult pass.failure, session.passed bound pass, pass.journal⟩
  | none => return ⟨.error (session.refusal .forward), session, []⟩

/-! ## The end -/

/-- Releases every function, in table order, and the store. -/
def free (session : Session σ) : Reply σ Unit :=
  match session.stage with
  | .freed => ⟨.error (session.refusal .free), session, []⟩
  | _ => ⟨.ok (), { session with held := none, latest := none, stage := .freed }, session.close⟩

end Session

end Inference
