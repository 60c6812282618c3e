import Inference.Dispatch
import Inference.Metrics

set_option autoImplicit false
set_option relaxedAutoImplicit false

/-!
# Passes

A pass executes the bound nodes in table order over a table with the contents of every variable.
While a node has its turn, the entries of its outputs are moved out of the table, so that its
routine holds them alone; the entries of its inputs are read where they are. What the routine gives
back is laid over the outputs, also where the routine fails, and they are put back. The pass stops
at the first failure; what was written until then stays.

The clock is the only thing that a pass needs from outside. It is an action in an arbitrary monad,
so a pass over a clock that stands still is a plain function.

## Main definitions

* `gather`, `moveOut`, `putBack` — the entries of variables, read in place or moved out of the
  table and back.
* `BoundNode.execute` — the turn of one node.
* `Engine.executeAll` — all nodes, with or without a collector for their timings.
* `Pass`, `Engine.run` — a pass over all nodes.
-/

namespace Inference

/-- The contents of every variable, by its index. -/
abbrev Contents := List Bytes

/-- The contents of the given variables. -/
def gather (contents : Contents) (vs : List Variable) : List Bytes :=
  vs.map fun v => contents[v.index]?.getD []

/-- The contents of the given variables, and the table without them: a moved entry is empty. -/
def moveOut (contents : Contents) : List Variable → List Bytes × Contents
  | [] => ([], contents)
  | v :: vs =>
    let (others, rest) := moveOut (contents.set v.index []) vs
    (contents[v.index]?.getD [] :: others, rest)

/-- The table with contents put into the entries of the given variables, in order. -/
def putBack (contents : Contents) : List Variable → List Bytes → Contents
  | v :: vs, region :: regions => putBack (contents.set v.index region) vs regions
  | _, _ => contents

/-- The turn of one node. -/
structure Turn (σ : Type) where
  /-- The node, with the private state that the routine left. -/
  function : BoundNode σ
  contents : Contents
  result : Except RoutineFault Unit
  journal : List (Event σ)

/-- Executes a node over the contents of all variables. -/
def BoundNode.execute {σ : Type} (function : BoundNode σ) (contents : Contents) : Turn σ :=
  let node := function.node
  let (outputs, rest) := moveOut contents node.outputs
  let outcome := function.binding.execute ⟨node, gather rest node.inputs, outputs⟩
    function.binding.state
  { function := { function with binding := { function.binding with state := outcome.state } }
    contents := putBack rest node.outputs (Bytes.overwriteAll outputs outcome.outputs)
    result := outcome.result
    journal := .executed node.index outcome.state :: outcome.notes.map .note }

/-- The node that a pass stopped at, and why. -/
structure Failure where
  function : Nat
  op : Operator
  fault : RoutineFault
deriving DecidableEq

/-- What a pass leaves. -/
structure Pass (σ : Type) where
  /-- All nodes, with the private states that their routines left. -/
  functions : List (BoundNode σ)
  contents : Contents
  failure : Option Failure
  /-- What was collected about the pass, if anything was to be. -/
  metrics : Option Metrics
  journal : List (Event σ)

namespace Engine

variable {σ : Type} {m : Type → Type} [Monad m]

/-- Records a function that started at some time in a collector, if there is one. -/
def record (now : m Nat) (function : BoundNode σ) (start : Nat) :
    (collector : Option Metrics) → m (Option Metrics)
  | none => pure none
  | some metrics => do
    let stop ← now
    let node := function.node
    pure (some (metrics.record ⟨node.index, node.op, function.source, stop - start⟩))

/-- Executes bound nodes in order, up to the first that fails. Those that succeed are recorded in
the collector, if there is one. -/
def executeAll (now : m Nat) :
    List (BoundNode σ) → Contents → (collector : Option Metrics) → m (Pass σ)
  | [], contents, collector => pure ⟨[], contents, none, collector, []⟩
  | function :: rest, contents, collector => do
    let start ← now
    let turn := function.execute contents
    match turn.result with
    | .error fault =>
      let failure : Failure := ⟨function.node.index, function.node.op, fault⟩
      pure ⟨turn.function :: rest, turn.contents, some failure, collector, turn.journal⟩
    | .ok () =>
      let collector ← record now function start collector
      let later ← executeAll now rest turn.contents collector
      pure { later with
        functions := turn.function :: later.functions, journal := turn.journal ++ later.journal }

/-- A pass over all nodes. With profiling there is a collector, which the pass gives out when it is
complete. -/
def run (now : m Nat) (profiling : Bool) (functions : List (BoundNode σ)) (contents : Contents) :
    m (Pass σ) := do
  let start ← now
  let pass ← executeAll now functions contents (if profiling then some {} else none)
  match pass.failure, pass.metrics with
  | some _, _ => pure { pass with metrics := none }
  | none, none => pure pass
  | none, some metrics => do
    let stop ← now
    pure { pass with metrics := some (metrics.finish (stop - start)) }

end Engine

end Inference
