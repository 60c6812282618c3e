import Inference.Binding.Invocation

set_option autoImplicit false
set_option relaxedAutoImplicit false

/-!
# Slots and bindings

An implementation takes a node by filling a slot: with an execute routine, and if it likes with a
release routine and private state of a type `σ` that the host chooses. A slot with an execute
routine becomes the binding of the node.

Routines are functions of their arguments and the private state. What they tell their host is
returned beside their results, as notes.

## Main definitions

* `Outcome`, `Execute`, `Release` — the routines.
* `Slot` — what an implementation has installed so far.
* `Binding`, `Slot.binding?` — the routines and the state of a bound node.
* `Source` — which implementation a node is bound to.
-/

namespace Inference

/-- What an execute routine gives back. -/
structure Outcome (σ : Type) where
  /-- New bytes for the outputs, in argument order. -/
  outputs : List Bytes
  /-- The private state after the call. -/
  state : Option σ
  result : Except RoutineFault Unit
  /-- What the routine tells its host. -/
  notes : List String

/-- Executes a node: its arguments and the private state before the call. -/
abbrev Execute (σ : Type) := Invocation → Option σ → Outcome σ

/-- Releases the private state of a node; gives what it tells its host. -/
abbrev Release (σ : Type) := Option σ → List String

/-- What an implementation has installed so far. -/
structure Slot (σ : Type) where
  execute : Option (Execute σ) := none
  release : Option (Release σ) := none
  state : Option σ := none

/-- The routines and the private state of a bound node. -/
structure Binding (σ : Type) where
  execute : Execute σ
  release : Option (Release σ)
  state : Option σ

namespace Slot

variable {σ : Type}

/-- A slot in which nothing is installed. -/
def empty : Slot σ := {}

/-- Whether an execute routine is installed. -/
def isBound (slot : Slot σ) : Bool :=
  slot.execute.isSome

/-- The binding that a slot makes, if it has an execute routine. -/
def binding? (slot : Slot σ) : Option (Binding σ) :=
  slot.execute.map fun execute => ⟨execute, slot.release, slot.state⟩

/-- What is installed in a slot, for diagnostics. -/
def diagnostic (slot : Slot σ) : String :=
  s!"Slot \x7b has_execute: {slot.execute.isSome}, has_release: {slot.release.isSome}, " ++
    s!"has_state: {slot.state.isSome} \x7d"

end Slot

/-- Which implementation a node is bound to. -/
inductive Source where
  /-- The override at this position in the chain of the node's operator. -/
  | override (position : Nat)
  | builtin
deriving DecidableEq

/-- The words for an implementation. -/
def Source.label : Source → String
  | .override position => s!"override #{position}"
  | .builtin => "built-in"

/-- An implementation in structured output. -/
def Source.report : Source → Report
  | .override position => .record [("override", .count position)]
  | .builtin => .text "builtin"

end Inference
