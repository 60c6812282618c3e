import Inference.Binding.Node
import Inference.Kernel.Fault
import Inference.Single

set_option autoImplicit false
set_option relaxedAutoImplicit false

/-!
# Invocations

What an execute routine sees: the node, the current bytes of its inputs, and the current bytes of
its outputs. Arguments can be viewed as bytes or, where the element type is float, as values.

## Main definitions

* `Invocation` — the arguments of one call.
* `Invocation.input`, `Invocation.output` — an argument as bytes.
* `Invocation.inputSingles`, `Invocation.outputSingles` — an argument as values.
* `Invocation.writeOutput` — the call with new bytes laid over an output.
* `RoutineFault` — why a routine fails.
-/

namespace Inference

/-- The two sides of an argument list. -/
inductive Side where
  | input
  | output
deriving DecidableEq

/-- Why an execute routine fails. -/
inductive RoutineFault where
  /-- A kernel, or a view, refused its operands. -/
  | kernel (fault : KernelFault)
  /-- The routine asked for an argument that the function does not have. -/
  | missingArgument (side : Side) (index count : Nat)
  /-- An argument cannot be viewed as values of the given type. -/
  | misaligned (side : Side) (index : Nat) (view : String)
  /-- The routine's own words. -/
  | failed (detail : String)
  /-- The routine reached for elements that an operand does not have. It breaks off without an
  answer, in the middle of what it writes. -/
  | overrun
deriving DecidableEq

/-- The name of a side. -/
def Side.label : Side → String
  | .input => "input"
  | .output => "output"

/-- The wording of a routine fault. -/
def RoutineFault.message : RoutineFault → String
  | .kernel fault => fault.message
  | .missingArgument side index count => s!"{side.label} {index} requested, function has {count}"
  | .misaligned side index view => s!"{side.label} {index} is not aligned for {view}"
  | .failed detail => detail
  | .overrun => "position out of range"

/-- The arguments of one call of an execute routine. -/
structure Invocation where
  node : Node
  /-- Current bytes of the inputs, in argument order. -/
  inputs : List Bytes
  /-- Current bytes of the outputs, in argument order. -/
  outputs : List Bytes
deriving DecidableEq

namespace Invocation

/-- The variable of an input. -/
def inputVariable (call : Invocation) (index : Nat) : Except RoutineFault Variable :=
  match call.node.inputs[index]? with
  | some v => .ok v
  | none => .error (.missingArgument .input index call.node.inputs.length)

/-- The variable of an output. -/
def outputVariable (call : Invocation) (index : Nat) : Except RoutineFault Variable :=
  match call.node.outputs[index]? with
  | some v => .ok v
  | none => .error (.missingArgument .output index call.node.outputs.length)

/-- The bytes of an input. -/
def input (call : Invocation) (index : Nat) : Except RoutineFault Bytes :=
  match call.inputs[index]? with
  | some bytes => .ok bytes
  | none => .error (.missingArgument .input index call.node.inputs.length)

/-- The bytes of an output. -/
def output (call : Invocation) (index : Nat) : Except RoutineFault Bytes :=
  match call.outputs[index]? with
  | some bytes => .ok bytes
  | none => .error (.missingArgument .output index call.outputs.length)

/-- Bytes as values, where the element type allows it. -/
def view (operation : String) (side : Side) (index : Nat) (type : ElementType) (bytes : Bytes) :
    Except RoutineFault (List Single) :=
  if type ≠ .float then .error (.kernel (.unsupportedElementType operation type))
  else
    match Single.ofBytes? bytes with
    | some values => .ok values
    | none => .error (.misaligned side index "f32")

/-- The values of an input. -/
def inputSingles (call : Invocation) (index : Nat) : Except RoutineFault (List Single) := do
  let v ← call.inputVariable index
  let bytes ← call.input index
  view "input_f32" .input index v.elementType bytes

/-- The values of an output before the call writes them. -/
def outputSingles (call : Invocation) (index : Nat) : Except RoutineFault (List Single) := do
  let v ← call.outputVariable index
  let bytes ← call.output index
  view "output_f32_mut" .output index v.elementType bytes

/-- The call with new bytes laid over an output, as far as they fit. -/
def writeOutput (call : Invocation) (index : Nat) (bytes : Bytes) : Invocation :=
  { call with
    outputs := call.outputs.modify index fun old => Bytes.overwrite old bytes }

/-- The call with new values laid over an output, as far as they fit. -/
def writeSingles (call : Invocation) (index : Nat) (values : List Single) : Invocation :=
  call.writeOutput index (Single.bytesOf values)

end Invocation

end Inference
