import Inference.Binding.Event
import Inference.Builtin.Registry
import Inference.Status

set_option autoImplicit false
set_option relaxedAutoImplicit false

/-!
# Dispatch

Every node is bound once. The overrides that a host registered for the node's operator are asked
in the order of their registration, and the first one that takes the node has it; if none does,
the registry of built-in implementations decides. A node whose variant is the sentinel goes to
the registry at once.

## Main definitions

* `Resolver`, `Trial` — an override, and its answer for one node.
* `Dispatch` — the chains of overrides, the registry, and the sentinel.
* `Dispatch.resolve` — binds one node.
* `BoundNode`, `Dispatch.bindAll` — binds nodes in order, up to the first that cannot be bound.
* `BindingFault` — why a node cannot be bound.
-/

namespace Inference

/-! ## Overrides -/

/-- Whether an override takes a node. -/
inductive Resolution where
  /-- It installed an execute routine and has the node. -/
  | matched
  /-- The next candidate is asked. -/
  | declined
deriving DecidableEq

/-- The status that an answer stands for. -/
def Resolution.status : Resolution → Status
  | .matched => .noError
  | .declined => .functionNotMatched

/-- The answer of an override for one node. -/
structure Trial (σ : Type) where
  resolution : Resolution
  /-- What the override installed. -/
  slot : Slot σ
  /-- What the override tells its host. -/
  notes : List String

/-- An override: looks at a node and fills a slot for it, or declines. An override may remember what
it was asked before, so its answer may also depend on the number that the host gives a loading. -/
abbrev Resolver (σ : Type) := (loading : Nat) → Node → Slot σ → Trial σ

/-! ## Faults -/

/-- Why nothing binds a node. -/
inductive UnsupportedReason where
  /-- The override at this position took the node and installed no execute routine. -/
  | emptyMatch (position : Nat)
  /-- No override took the node, and the registry has no entry for it. -/
  | noCandidate
  /-- The built-in implementations cannot work on the node's element types. -/
  | notFloat
  /-- The built-in implementation installed no execute routine. -/
  | emptyBuiltin
deriving DecidableEq

/-- The wording of a reason. -/
def UnsupportedReason.message : UnsupportedReason → String
  | .emptyMatch position =>
    s!"override #{position} reported a match without installing an execute routine"
  | .noCandidate => "no override matched and no built-in is registered"
  | .notFloat => "built-in implementations only handle float variables"
  | .emptyBuiltin => "built-in installed no execute routine"

/-- Why a node cannot be bound. -/
inductive BindingFault where
  /-- Nothing binds the node. -/
  | unsupported (reason : UnsupportedReason)
  /-- The built-in implementation refuses the node. -/
  | refused (fault : DescriptorFault)
deriving DecidableEq

/-! ## Tables -/

/-- The candidates for the nodes of a network. -/
structure Dispatch (σ : Type) where
  /-- For each operator, by its number, the overrides in the order of their registration. -/
  chains : KeyedTable (List (Resolver σ))
  registry : Registry σ
  /-- The variant that always selects the registry, if there is one. -/
  sentinel : Option UInt16

/-- The answer of a dispatch table for one node, and what happened on the way. -/
structure Verdict (σ : Type) where
  result : Except BindingFault (Source × Binding σ)
  journal : List (Event σ)

/-- A node bound to its implementation. -/
structure BoundNode (σ : Type) where
  node : Node
  source : Source
  binding : Binding σ

/-- Nodes bound in order. -/
structure BoundNodes (σ : Type) where
  /-- The nodes that were bound. -/
  functions : List (BoundNode σ)
  /-- The node after them, if it cannot be bound. -/
  failure : Option (Node × BindingFault)
  journal : List (Event σ)

namespace Dispatch

variable {σ : Type}

/-- A table without overrides. -/
def empty (registry : Registry σ) (sentinel : Option UInt16) : Dispatch σ :=
  ⟨.empty, registry, sentinel⟩

/-- The overrides of an operator, in the order of their registration. -/
def chain (dispatch : Dispatch σ) (op : Operator) : List (Resolver σ) :=
  (dispatch.chains.find? op.key).getD []

/-- The table with one more override at the end of the chain of an operator. -/
def register (dispatch : Dispatch σ) (op : Operator) (resolver : Resolver σ) : Dispatch σ :=
  { dispatch with
    chains := dispatch.chains.set op.key (dispatch.chain op ++ [resolver]) }

/-- Number of overrides of an operator. -/
def chainLength (dispatch : Dispatch σ) (op : Operator) : Nat :=
  (dispatch.chain op).length

/-! ## Binding one node -/

/-- The overrides that are asked about a node: none if its variant is the sentinel. -/
def candidates (dispatch : Dispatch σ) (node : Node) : List (Resolver σ) :=
  if dispatch.sentinel = some node.variant then [] else dispatch.chain node.op

/-- Asks overrides about a node, each with an empty slot, up to the first that takes it. Gives
that one's position, counted from `position`, and slot. -/
def askFrom (loading : Nat) (node : Node) (position : Nat) :
    List (Resolver σ) → Option (Nat × Slot σ) × List (Event σ)
  | [] => (none, [])
  | resolver :: rest =>
    let trial := resolver loading node .empty
    let events := .tried node.index position :: trial.notes.map .note
    match trial.resolution with
    | .matched => (some (position, trial.slot), events)
    | .declined =>
      let (found, later) := askFrom loading node (position + 1) rest
      (found, events ++ later)

/-- Binds a node to the built-in implementation for it. -/
def bindBuiltin (registry : Registry σ) (node : Node) :
    Except BindingFault (Source × Binding σ) :=
  match registry.lookup? node.op node.variant with
  | none => .error (.unsupported .noCandidate)
  | some installer =>
    if node.allOf .float then
      let installation := installer node .empty
      match installation.result with
      | .error fault => .error (.refused fault)
      | .ok () =>
        match installation.slot.binding? with
        | some binding => .ok (.builtin, binding)
        | none => .error (.unsupported .emptyBuiltin)
    else .error (.unsupported .notFloat)

/-- Binds a node to the override that took it. -/
def bindOverride (position : Nat) (slot : Slot σ) : Except BindingFault (Source × Binding σ) :=
  match slot.binding? with
  | some binding => .ok (.override position, binding)
  | none => .error (.unsupported (.emptyMatch position))

/-- Binds a node: to the first override that takes it, or else to a built-in implementation. -/
def resolve (dispatch : Dispatch σ) (loading : Nat) (node : Node) : Verdict σ :=
  match askFrom loading node 0 (dispatch.candidates node) with
  | (some (position, slot), journal) => ⟨bindOverride position slot, journal⟩
  | (none, journal) => ⟨bindBuiltin dispatch.registry node, journal⟩

/-! ## Binding all nodes -/

/-- Binds nodes in order, up to the first that cannot be bound. -/
def bindAll (dispatch : Dispatch σ) (loading : Nat) : List Node → BoundNodes σ
  | [] => ⟨[], none, []⟩
  | node :: rest =>
    let verdict := dispatch.resolve loading node
    match verdict.result with
    | .error fault => ⟨[], some (node, fault), verdict.journal⟩
    | .ok (source, binding) =>
      let later := dispatch.bindAll loading rest
      let event := Event.bound node.index source binding
      ⟨⟨node, source, binding⟩ :: later.functions, later.failure,
        verdict.journal ++ event :: later.journal⟩

end Dispatch

/-! ## Releasing -/

/-- Runs the release routine of a bound node, if it has one. -/
def BoundNode.release {σ : Type} (function : BoundNode σ) : List (Event σ) :=
  match function.binding.release with
  | none => []
  | some release =>
    .released function.node.index release function.binding.state ::
      (release function.binding.state).map .note

/-- Runs the release routines of bound nodes, in order. -/
def BoundNode.releaseAll {σ : Type} (functions : List (BoundNode σ)) : List (Event σ) :=
  functions.flatMap BoundNode.release

end Inference
