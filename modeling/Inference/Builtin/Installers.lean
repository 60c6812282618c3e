import Inference.Builtin.Registry
import Inference.Descriptor.Parameters
import Inference.Kernel.Affine
import Inference.Kernel.Elementwise
import Inference.Kernel.Softmax

set_option autoImplicit false
set_option relaxedAutoImplicit false

/-!
# Built-in implementations

An installer checks a node's arity, shapes and parameters once, so that the kernel it installs
never refuses its operands. All built-in implementations work on float variables, have one output
and no private state, and are registered as variant 0.

## Main definitions

* `Builtin.checked` — the common form: checks, then a kernel over the views of the arguments.
* `Builtin.affine`, `Builtin.unary`, `Builtin.leakyRelu`, `Builtin.softmax`, `Builtin.binary`,
  `Builtin.withScalar` — the installers.
* `Registry.defaults` — the registry of all of them.
-/

namespace Inference

namespace Builtin

variable {σ : Type}

/-- A kernel over the views of the arguments: what it leaves in the first output. -/
abbrev Computation := Invocation → Except RoutineFault (Kernel.Written Single)

/-- Executes a computation and lays its values over the first output. -/
def execute (compute : Computation) : Execute σ := fun call state =>
  match compute call with
  | .ok written =>
    ⟨(call.writeSingles 0 written.values).outputs, state,
      if written.complete then .ok () else .error .overrun, []⟩
  | .error fault => ⟨call.outputs, state, .error fault, []⟩

/-- Installs a computation in a slot. -/
def install (compute : Computation) (slot : Slot σ) : Slot σ :=
  { slot with execute := some (execute compute) }

/-- Installs the computation that checks of a node give. If they refuse the node, the slot stays as
it is. -/
def checked (check : Node → Except DescriptorFault Computation) : Installer σ := fun node slot =>
  match check node with
  | .ok compute => ⟨install compute slot, .ok ()⟩
  | .error fault => ⟨slot, .error fault⟩

/-- The answer of a kernel as the answer of a routine. -/
def ofKernel {α : Type} (answer : Except KernelFault α) : Except RoutineFault α :=
  answer.mapError .kernel

/-! ## Checks -/

/-- A fault of a node. -/
def nodeFault (node : Node) (fault : NodeFault) : DescriptorFault :=
  .invalidNode node.index fault

/-- The only output of a node that has between `least` and `most` inputs and one output. -/
def expectArity (node : Node) (least most : Nat) : Except DescriptorFault Variable :=
  let given := node.inputs.length
  let fault := nodeFault node (.arity node.op least most 1 given node.outputs.length)
  match node.outputs with
  | [output] => if least ≤ given ∧ given ≤ most then .ok output else .error fault
  | _ => .error fault

/-- Checks that every input has as many elements as the output. -/
def expectSameSize (node : Node) (output : Variable) : Except DescriptorFault Unit :=
  match node.inputs.find? fun v => v.elementCount != output.elementCount with
  | none => .ok ()
  | some v => .error (nodeFault node (.inputSize node.op v.index v.shape output.elementCount))

/-! ## Installers -/

/-- One input, one output of the same size, a kernel without parameters. -/
def unary (kernel : List Single → List Single → Except KernelFault (List Single)) :
    Installer σ := checked fun node => do
  let output ← expectArity node 1 1
  expectSameSize node output
  return fun call => do
    let x ← call.inputSingles 0
    let y ← call.outputSingles 0
    ofKernel ((kernel x y).map .whole)

/-- Two inputs, one output, all of the same size. -/
def binary (kernel : List Single → List Single → List Single → Except KernelFault (List Single)) :
    Installer σ := checked fun node => do
  let output ← expectArity node 2 2
  expectSameSize node output
  return fun call => do
    let a ← call.inputSingles 0
    let b ← call.inputSingles 1
    let y ← call.outputSingles 0
    ofKernel ((kernel a b y).map .whole)

/-- One input, one output of the same size, a kernel with the scalar that the parameters hold. -/
def withScalar
    (kernel : Single → List Single → List Single → Except KernelFault (List Single)) :
    Installer σ := checked fun node => do
  let output ← expectArity node 1 1
  expectSameSize node output
  let value ← Parameters.scalar node.op node.parameters
  return fun call => do
    let x ← call.inputSingles 0
    let y ← call.outputSingles 0
    ofKernel ((kernel value x y).map .whole)

/-- The slope on the negative side when the parameters hold none: one tenth. -/
def defaultSlope : Single := ⟨0x3dcccccd⟩

/-- The leaky rectifier, with the slope that the parameters hold. -/
def leakyRelu : Installer σ := checked fun node => do
  let output ← expectArity node 1 1
  expectSameSize node output
  let slope ←
    if node.parameters.isEmpty then pure defaultSlope
    else Parameters.scalar node.op node.parameters
  return fun call => do
    let x ← call.inputSingles 0
    let y ← call.outputSingles 0
    ofKernel ((Kernel.leakyRelu slope x y).map .whole)

/-- Softmax along the axis that the parameters hold, or along the last one. -/
def softmax : Installer σ := checked fun node => do
  let output ← expectArity node 1 1
  expectSameSize node output
  let shape := (node.inputs.head?.map Variable.shape).getD .scalar
  let axis ←
    if node.parameters.isEmpty then pure (shape.rank - 1)
    else Parameters.axis node.op node.parameters
  if shape.rank ≤ axis then throw (nodeFault node (.softmaxAxis axis shape))
  return fun call => do
    let x ← call.inputSingles 0
    let y ← call.outputSingles 0
    ofKernel ((Kernel.softmax x y shape axis).map .whole)

/-- The sizes of an affine transform, in machine words: rows of the input, elements of such a row,
and elements of an output row. -/
def affineSizes (node : Node) (input weight : Shape) (axis : Nat) :
    Except DescriptorFault (UInt64 × UInt64 × UInt64) :=
  match input.splitAt? axis with
  | none => .error (nodeFault node (.baseAxis axis input))
  | some (outer, k) =>
    match weight.splitAt? 1 with
    | some (rows, n) =>
      if rows = k then .ok (outer, k, n)
      else .error (nodeFault node (.weightShape weight input axis))
    | none => .error (nodeFault node (.weightShape weight input axis))

/-- The affine transform: an input, a weight and, if there is a third input, a bias. -/
def affine : Installer σ := checked fun node => do
  let output ← expectArity node 2 3
  let axis ← Parameters.baseAxis node.parameters
  let shapes := node.inputs.map Variable.shape
  let input := shapes[0]?.getD .scalar
  let weight := shapes[1]?.getD .scalar
  let (outer, _, n) ← affineSizes node input weight axis
  if output.elementCount ≠ (outer * n).toNat then
    throw (nodeFault node (.outputSize output.shape outer.toNat n.toNat))
  match shapes[2]? with
  | some bias =>
    if bias.elementCount ≠ n.toNat then throw (nodeFault node (.biasSize bias n.toNat))
  | none => pure ()
  let hasBias := node.inputs.length = 3
  return fun call => do
    let x ← call.inputSingles 0
    let w ← call.inputSingles 1
    let b ← if hasBias then (call.inputSingles 2).map some else pure none
    let y ← call.outputSingles 0
    ofKernel (Kernel.affine x input w weight b y axis)

end Builtin

/-- The built-in implementations, all as variant 0. -/
def Registry.defaults {σ : Type} : Registry σ :=
  let installers : List (Operator × Installer σ) :=
    [(.affine, Builtin.affine),
     (.relu, Builtin.unary Kernel.relu),
     (.leakyRelu, Builtin.leakyRelu),
     (.sigmoid, Builtin.unary Kernel.sigmoid),
     (.tanh, Builtin.unary Kernel.tanh),
     (.softmax, Builtin.softmax),
     (.add2, Builtin.binary Kernel.add2),
     (.sub2, Builtin.binary Kernel.sub2),
     (.mul2, Builtin.binary Kernel.mul2),
     (.addScalar, Builtin.withScalar Kernel.addScalar),
     (.mulScalar, Builtin.withScalar Kernel.mulScalar)]
  installers.foldl (fun registry (op, installer) => registry.register op 0 installer) .empty

end Inference
