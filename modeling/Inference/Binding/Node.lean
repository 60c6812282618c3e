import Inference.Descriptor.Network

set_option autoImplicit false
set_option relaxedAutoImplicit false

/-!
# Nodes

A function entry with its variables in place of their indices: all that an implementation may
look at when it decides whether to take the function, and while it executes it.

## Main definitions

* `Node` — a function and its argument variables.
* `Network.node` — the node of a function entry.
-/

namespace Inference

/-- A function and its argument variables. -/
structure Node where
  /-- Position in the function table. -/
  index : Nat
  op : Operator
  variant : UInt16
  /-- Input variables, in argument order. -/
  inputs : List Variable
  /-- Output variables, in argument order. -/
  outputs : List Variable
  /-- The operator's own bytes. -/
  parameters : Bytes
deriving DecidableEq

/-- Whether every argument of a node has elements of one type. -/
def Node.allOf (node : Node) (type : ElementType) : Bool :=
  (node.inputs ++ node.outputs).all fun v => v.elementType = type

/-- The node of a function entry. -/
def Network.node (network : Network) (entry : FunctionEntry) : Node where
  index := entry.index
  op := entry.op
  variant := entry.variant
  inputs := network.select entry.inputs
  outputs := network.select entry.outputs
  parameters := entry.parameters

end Inference
