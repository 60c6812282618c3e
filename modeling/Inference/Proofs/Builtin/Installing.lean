import Inference.Builtin.Installers
import Inference.Proofs.Kernel.Transform

set_option autoImplicit false
set_option relaxedAutoImplicit false

/-!
# Installing built-in implementations

An installer looks at the shapes of a node, and the kernel that it installs looks at the lengths of
its operands. The checks are written twice, and this file shows that they agree: an installer takes
a node exactly when the kernel never refuses values of the sizes that the node declares.

Not to refuse its operands is not all that a kernel should do. The affine transform takes operands
whose lengths are products that wrapped, and breaks off in the middle of its output. If the products
of the declared dimensions are exact in machine words, every kernel runs to its end.

## Main definitions

* `Builtin.Kind` — the default built-in implementations, with their installers.
* `Builtin.Kind.Arity`, `Builtin.Kind.operation` — how many arguments a kind takes, and its kernel
  over them.
* `Node.Declares`, `Node.Admits` — values of the declared sizes, and a kernel that takes them all.
* `Node.Completes` — a kernel that runs to its end on all of them.
* `Node.Counted`, `Node.InRange` — arguments whose element counts, or all of whose products of
  dimensions, are exact in machine words.
* `Builtin.Realizes` — an installer that agrees with a kernel.

## Main results

* `Builtin.Kind.realizes` — every default installer agrees with its kernel.
* `Builtin.Kind.completes_iff` — on a node in range, a kernel that takes all values runs to its end.
-/

namespace Inference

/-! ## Declared sizes -/

/-- Values for the arguments of a node: as many as each variable has elements. -/
structure Node.Declares (node : Node) (inputs : List (List Single)) (output : List Single) :
    Prop where
  inputs_eq : inputs.map List.length = node.inputs.map Variable.elementCount
  output_eq : [output.length] = node.outputs.map Variable.elementCount

/-- The shape of an input of a node. -/
def Node.inputShape (node : Node) (index : Nat) : Shape :=
  (node.inputs[index]?.map Variable.shape).getD .scalar

namespace Builtin

/-- A kernel over all arguments of a node: the values of the inputs in argument order, and the old
values of the output. -/
abbrev ArgumentKernel :=
  List (List Single) → List Single → Except KernelFault (Kernel.Written Single)

end Builtin

open Builtin

/-- A kernel takes all values of the sizes that a node declares, whatever the values are. -/
def Node.Admits (node : Node) (operation : ArgumentKernel) : Prop :=
  ∀ inputs output, node.Declares inputs output → ∃ written, operation inputs output = .ok written

/-- A kernel takes all values of the sizes that a node declares, and runs to its end on them. -/
def Node.Completes (node : Node) (operation : ArgumentKernel) : Prop :=
  ∀ inputs output, node.Declares inputs output →
    ∃ values, operation inputs output = .ok (.whole values)

/-- The inputs of a node have as many elements as its output. -/
def Node.SameSizes (node : Node) : Prop :=
  ∀ output ∈ node.outputs, ∀ v ∈ node.inputs, v.elementCount = output.elementCount

/-- A node whose arguments have element counts that are exact in machine words. -/
def Node.Counted (node : Node) : Prop :=
  ∀ v ∈ node.inputs ++ node.outputs, v.elementCount < wordLimit

/-- A node whose arguments are in range, together with the sizes that an affine transform of any
two of them has: rows of the input, elements of such a row, elements of an output row, and the
products of these. -/
structure Node.InRange (node : Node) : Prop where
  shapes : ∀ v ∈ node.inputs ++ node.outputs, v.shape.InRange
  affine : ∀ input ∈ node.inputs ++ node.outputs, ∀ weight ∈ node.inputs ++ node.outputs,
    ∀ axis outer k n, affineSizes node input.shape weight.shape axis = .ok (outer, k, n) →
      (outer.toNat = Shape.product (input.shape.dims.take axis) ∧
        k.toNat = Shape.product (input.shape.dims.drop axis) ∧
        n.toNat = Shape.product (weight.shape.dims.drop 1)) ∧
      outer.toNat * k.toNat < wordLimit ∧ k.toNat * n.toNat < wordLimit ∧
        outer.toNat * n.toNat < wordLimit

/-- A node in range has exact element counts. -/
lemma Node.InRange.counted {node : Node} (h : node.InRange) : node.Counted :=
  fun v hv => (h.shapes v hv).elementCount_lt

/-- The views of the arguments of a call. -/
structure Invocation.Views (call : Invocation) (inputs : List (List Single))
    (output : List Single) : Prop where
  input : ∀ (i : Nat) (values : List Single), inputs[i]? = some values →
    call.inputSingles i = .ok values
  output : call.outputSingles 0 = .ok output

section

variable {node : Node} {inputs : List (List Single)} {output : List Single} {result : Variable}

/-- The shape of an input that is there has as many elements as the input. -/
lemma Node.elementCount_inputShape {i : Nat} {v : Variable} (hv : node.inputs[i]? = some v) :
    (node.inputShape i).elementCount = v.elementCount := by
  rw [Node.inputShape, hv]
  rfl

/-- Values for an input are as many as it has elements. -/
lemma Node.Declares.map_length_getElem? (h : node.Declares inputs output) (i : Nat) :
    inputs[i]?.map List.length = node.inputs[i]?.map Variable.elementCount := by
  rw [← List.getElem?_map, ← List.getElem?_map, h.inputs_eq]

/-- Values for an input are as many as its shape has elements. -/
lemma Node.Declares.length_getD (h : node.Declares inputs output) {i : Nat}
    (hi : i < node.inputs.length) :
    (inputs.getD i []).length = (node.inputShape i).elementCount := by
  have hlength := h.map_length_getElem? i
  rw [List.getElem?_eq_getElem hi, Option.map_some, Option.map_eq_some_iff] at hlength
  obtain ⟨values, hvalues, hlength⟩ := hlength
  rw [List.getD_eq_getElem?_getD, hvalues, Option.getD_some, hlength,
    Node.elementCount_inputShape (List.getElem?_eq_getElem hi)]

/-- There are values for all inputs. -/
lemma Node.Declares.length_eq (h : node.Declares inputs output) :
    inputs.length = node.inputs.length := by
  have hlengths := congrArg List.length h.inputs_eq
  rwa [List.length_map, List.length_map] at hlengths

/-- Values for the output are as many as it has elements. -/
lemma Node.Declares.length_output (h : node.Declares inputs output)
    (hresult : node.outputs = [result]) : output.length = result.elementCount := by
  have houtput := h.output_eq
  rw [hresult] at houtput
  simpa using houtput

/-- There are values of all sizes. -/
lemma Node.declares_replicate (hresult : node.outputs = [result]) :
    node.Declares (node.inputs.map fun v => List.replicate v.elementCount .zero)
      (List.replicate result.elementCount .zero) where
  inputs_eq := by simp [Function.comp_def]
  output_eq := by simp [hresult]

/-- If the answer of a kernel on values of the declared sizes is the same for all values, the node
admits the kernel when this answer is that it takes them. -/
lemma Node.admits_iff {operation : ArgumentKernel} {P : Prop} (hresult : node.outputs = [result])
    (h : ∀ inputs output, node.Declares inputs output →
      ((∃ written, operation inputs output = .ok written) ↔ P)) :
    node.Admits operation ↔ P := by
  constructor
  · intro hadmits
    have hzeros := Node.declares_replicate hresult
    exact (h _ _ hzeros).mp (hadmits _ _ hzeros)
  · exact fun hP inputs output hdeclares => (h inputs output hdeclares).mpr hP

end

namespace Builtin

variable {σ : Type}

/-! ## Kinds -/

/-- The default built-in implementations. -/
inductive Kind where
  | affine
  | relu
  | leakyRelu
  | sigmoid
  | tanh
  | softmax
  | add2
  | sub2
  | mul2
  | addScalar
  | mulScalar
deriving DecidableEq

/-- A kernel on one operand over all arguments of a node. -/
def onOne (kernel : List Single → List Single → Except KernelFault (List Single)) :
    ArgumentKernel :=
  fun inputs output => (kernel (inputs.getD 0 []) output).map .whole

/-- A kernel on two operands over all arguments of a node. -/
def onTwo (kernel : List Single → List Single → List Single → Except KernelFault (List Single)) :
    ArgumentKernel :=
  fun inputs output => (kernel (inputs.getD 0 []) (inputs.getD 1 []) output).map .whole

/-- The affine transform over all arguments of a node, the third of which is the bias. -/
def onAffine (node : Node) (axis : Nat) : ArgumentKernel := fun inputs output =>
  Kernel.affine (inputs.getD 0 []) (node.inputShape 0) (inputs.getD 1 []) (node.inputShape 1)
    inputs[2]? output axis

/-- The slope that the parameters of a node hold, or the default one. -/
def slopeOf (node : Node) : Except DescriptorFault Single :=
  if node.parameters.isEmpty then .ok defaultSlope else Parameters.scalar node.op node.parameters

/-- The axis that the parameters of a node hold, or the last one. -/
def axisOf (node : Node) : Except DescriptorFault Nat :=
  if node.parameters.isEmpty then .ok ((node.inputShape 0).rank - 1)
  else Parameters.axis node.op node.parameters

namespace Kind

/-- The installer of a kind. -/
def installer : Kind → Installer σ
  | affine => Builtin.affine
  | relu => Builtin.unary Kernel.relu
  | leakyRelu => Builtin.leakyRelu
  | sigmoid => Builtin.unary Kernel.sigmoid
  | tanh => Builtin.unary Kernel.tanh
  | softmax => Builtin.softmax
  | add2 => Builtin.binary Kernel.add2
  | sub2 => Builtin.binary Kernel.sub2
  | mul2 => Builtin.binary Kernel.mul2
  | addScalar => Builtin.withScalar Kernel.addScalar
  | mulScalar => Builtin.withScalar Kernel.mulScalar

/-- How many inputs a kind takes. -/
def inputCounts : Kind → List Nat
  | affine => [2, 3]
  | add2 | sub2 | mul2 => [2]
  | _ => [1]

/-- A node has as many arguments as a kind takes. -/
def Arity (kind : Kind) (node : Node) : Prop :=
  node.inputs.length ∈ kind.inputCounts ∧ node.outputs.length = 1

/-- The kernel of a kind with what the parameters of a node hold, or why they cannot be decoded. -/
def operation (kind : Kind) (node : Node) : Except DescriptorFault ArgumentKernel :=
  match kind with
  | affine => (Parameters.baseAxis node.parameters).map (onAffine node)
  | relu => .ok (onOne Kernel.relu)
  | leakyRelu => (slopeOf node).map fun slope => onOne (Kernel.leakyRelu slope)
  | sigmoid => .ok (onOne Kernel.sigmoid)
  | tanh => .ok (onOne Kernel.tanh)
  | softmax =>
    (axisOf node).map fun axis => onOne fun x y => Kernel.softmax x y (node.inputShape 0) axis
  | add2 => .ok (onTwo Kernel.add2)
  | sub2 => .ok (onTwo Kernel.sub2)
  | mul2 => .ok (onTwo Kernel.mul2)
  | addScalar =>
    (Parameters.scalar node.op node.parameters).map fun value => onOne (Kernel.addScalar value)
  | mulScalar =>
    (Parameters.scalar node.op node.parameters).map fun value => onOne (Kernel.mulScalar value)

end Kind

/-! ## Checks -/

/-- The only output of a node is given when the arguments are as many as they should be. -/
lemma expectArity_eq_ok_iff {node : Node} {least most : Nat} {output : Variable} :
    expectArity node least most = .ok output ↔
      (least ≤ node.inputs.length ∧ node.inputs.length ≤ most) ∧ node.outputs = [output] := by
  unfold expectArity
  split
  next only houtputs =>
    by_cases harity : least ≤ node.inputs.length ∧ node.inputs.length ≤ most
    · simp [harity, houtputs]
    · simp [harity]
  next hother =>
    have hnone : node.outputs ≠ [output] := hother output
    simp [hnone]

/-- The sizes pass their check when all are that of the output. -/
lemma expectSameSize_eq_ok_iff {node : Node} {output : Variable} {u : Unit} :
    expectSameSize node output = .ok u ↔
      ∀ v ∈ node.inputs, v.elementCount = output.elementCount := by
  unfold expectSameSize
  split
  next hnone => simpa using hnone
  next v hsome =>
    have hdiffers : ¬∀ v ∈ node.inputs, v.elementCount = output.elementCount := by
      intro hall
      have hv := hall v (List.mem_of_find?_eq_some hsome)
      simpa [hv] using List.find?_some hsome
    simp [hdiffers]

/-! ## Agreement -/

/-- A computation on the calls of a node is an operation on the views of the arguments. -/
def Computes (compute : Computation) (operation : ArgumentKernel) (count : Nat) : Prop :=
  ∀ (call : Invocation) (inputs : List (List Single)) (output : List Single),
    call.Views inputs output → inputs.length = count →
      compute call = ofKernel (operation inputs output)

/-- An installer agrees with a kernel on a node: it takes the node exactly when it has the right
arguments, the parameters can be decoded and the kernel admits them, and then it installs the
kernel. -/
structure Realizes (installer : Installer σ) (node : Node) (arity : Prop)
    (operation? : Except DescriptorFault ArgumentKernel) : Prop where
  accepts : node.Counted → ∀ slot, (installer node slot).result = .ok () ↔
    arity ∧ ∃ operation, operation? = .ok operation ∧ node.Admits operation
  installs : ∀ slot, (installer node slot).result = .ok () →
    ∃ operation compute, operation? = .ok operation ∧
      Computes compute operation node.inputs.length ∧
        (installer node slot).slot = install compute slot

/-- An installer takes a node when its checks do, and then installs what they give. -/
lemma checked_eq_ok_iff {check : Node → Except DescriptorFault Computation} {node : Node}
    {slot : Slot σ} :
    (checked check node slot).result = .ok () ↔
      ∃ compute, check node = .ok compute ∧
        (checked check node slot).slot = install compute slot := by
  unfold checked
  cases check node with
  | error fault => simp
  | ok compute => simp

/-- Checks that decode a setting, and then look at sizes that are just those the kernel with this
setting admits, make an installer that agrees with the kernel. -/
lemma realizes_checked {α : Type} {check : Node → Except DescriptorFault Computation} {node : Node}
    {arity : Prop} {decoded : Except DescriptorFault α} {operation : α → ArgumentKernel}
    (fits : α → Prop) (compute : α → Computation)
    (hcheck : ∀ found, check node = .ok found ↔
      arity ∧ ∃ setting, decoded = .ok setting ∧ fits setting ∧ found = compute setting)
    (hadmits : node.Counted → arity → ∀ setting, node.Admits (operation setting) ↔ fits setting)
    (hcomputes : arity → ∀ setting,
      Computes (compute setting) (operation setting) node.inputs.length) :
    Realizes (σ := σ) (checked check) node arity (decoded.map operation) where
  accepts := by
    intro hcounted slot
    rw [checked_eq_ok_iff]
    constructor
    · rintro ⟨found, hfound, -⟩
      obtain ⟨harity, setting, hsetting, hfits, -⟩ := (hcheck found).mp hfound
      exact ⟨harity, _, map_eq_ok_iff.mpr ⟨setting, hsetting, rfl⟩,
        (hadmits hcounted harity setting).mpr hfits⟩
    · rintro ⟨harity, _, hoperation, hoperands⟩
      obtain ⟨setting, hsetting, rfl⟩ := map_eq_ok_iff.mp hoperation
      have hfound := (hcheck _).mpr
        ⟨harity, setting, hsetting, (hadmits hcounted harity setting).mp hoperands, rfl⟩
      exact ⟨_, hfound, by rw [checked, hfound]⟩
  installs := by
    intro slot haccepted
    obtain ⟨found, hfound, hslot⟩ := checked_eq_ok_iff.mp haccepted
    obtain ⟨harity, setting, hsetting, -, rfl⟩ := (hcheck found).mp hfound
    exact ⟨_, _, map_eq_ok_iff.mpr ⟨setting, hsetting, rfl⟩, hcomputes harity setting, hslot⟩

/-! ## One input -/

/-- A kernel over the views of one input and the output. -/
def overOne (kernel : List Single → List Single → Except KernelFault (List Single)) :
    Computation := fun call => do
  let x ← call.inputSingles 0
  let y ← call.outputSingles 0
  ofKernel ((kernel x y).map .whole)

/-- The form of the installers that take one input and need nothing but its size: a setting is
decoded and a kernel with it installed. -/
def single {α : Type} (decode : Node → Except DescriptorFault α)
    (kernel : α → List Single → List Single → Except KernelFault (List Single)) :
    Installer σ := checked fun node => do
  let output ← expectArity node 1 1
  expectSameSize node output
  let setting ← decode node
  return overOne (kernel setting)

/-- The installers of kernels without parameters have this form. -/
lemma unary_eq_single (kernel : List Single → List Single → Except KernelFault (List Single)) :
    unary (σ := σ) kernel = single (fun _ => .ok ()) fun _ => kernel := rfl

/-- So have the installers of kernels with a scalar. -/
lemma withScalar_eq_single
    (kernel : Single → List Single → List Single → Except KernelFault (List Single)) :
    withScalar (σ := σ) kernel =
      single (fun node => Parameters.scalar node.op node.parameters) kernel := rfl

/-- So has the installer of the leaky rectifier. -/
lemma leakyRelu_eq_single : leakyRelu (σ := σ) = single slopeOf Kernel.leakyRelu := by
  unfold leakyRelu single
  congr 1
  funext node
  unfold slopeOf
  cases node.parameters.isEmpty <;> rfl

section

variable {node : Node}

/-- The sizes are the same when they are that of the only output. -/
lemma sameSizes_iff {output : Variable} (houtput : node.outputs = [output]) :
    node.SameSizes ↔ ∀ v ∈ node.inputs, v.elementCount = output.elementCount := by
  rw [Node.SameSizes, houtput, List.forall_mem_singleton]

/-- One input and one output. -/
lemma exists_of_arity_one (h : node.inputs.length ∈ [1] ∧ node.outputs.length = 1) :
    ∃ v output, node.inputs = [v] ∧ node.outputs = [output] := by
  obtain ⟨v, hv⟩ := List.length_eq_one_iff.mp (List.mem_singleton.mp h.1)
  obtain ⟨output, houtput⟩ := List.length_eq_one_iff.mp h.2
  exact ⟨v, output, hv, houtput⟩

/-- An installer that takes one input and finds the output has the right arguments. -/
lemma arity_one {output : Variable} (hcount : 1 ≤ node.inputs.length ∧ node.inputs.length ≤ 1)
    (houtput : node.outputs = [output]) :
    node.inputs.length ∈ [1] ∧ node.outputs.length = 1 := by
  rw [houtput, List.mem_singleton]
  exact ⟨Nat.le_antisymm hcount.2 hcount.1, rfl⟩

/-- A kernel over the views of one input is the kernel over all arguments. -/
lemma computes_onOne (kernel : List Single → List Single → Except KernelFault (List Single)) :
    Computes (overOne kernel) (onOne kernel) 1 := by
  intro call inputs output hviews hlength
  obtain ⟨x, rfl⟩ := List.length_eq_one_iff.mp hlength
  simp only [overOne, hviews.input 0 x rfl, hviews.output]
  rfl

/-- What a kernel on one operand admits is told by values of the declared sizes. -/
lemma admits_onOne_iff (accepts : Nat → Nat → Prop) {v output : Variable} (hv : node.inputs = [v])
    (houtput : node.outputs = [output])
    {kernel : List Single → List Single → Except KernelFault (List Single)}
    (hkernel : ∀ x y, (∃ values, kernel x y = .ok values) ↔ accepts x.length y.length) :
    node.Admits (onOne kernel) ↔ accepts v.elementCount output.elementCount := by
  have hinput : node.inputs[0]? = some v := by rw [hv, List.getElem?_cons_zero]
  apply Node.admits_iff houtput
  intro inputs y hdeclares
  rw [onOne, exists_map_eq_ok_iff, hkernel, hdeclares.length_getD (by simp [hv]),
    hdeclares.length_output houtput, Node.elementCount_inputShape hinput]

/-- An installer that needs nothing but the size of its input agrees with a kernel that needs
nothing but the length of its operand. -/
theorem realizes_single {α : Type} {decode : Node → Except DescriptorFault α}
    {kernel : α → List Single → List Single → Except KernelFault (List Single)}
    (hkernel : ∀ setting x y,
      (∃ values, kernel setting x y = .ok values) ↔ x.length = y.length) (node : Node) :
    Realizes (single (σ := σ) decode kernel) node
      (node.inputs.length ∈ [1] ∧ node.outputs.length = 1)
      ((decode node).map fun setting => onOne (kernel setting)) := by
  refine realizes_checked (fun _ => node.SameSizes) (fun setting => overOne (kernel setting))
    ?_ ?_ ?_
  · intro found
    simp only [bind_eq_ok_iff, expectArity_eq_ok_iff, expectSameSize_eq_ok_iff, pure_eq_ok_iff,
      exists_const]
    constructor
    · rintro ⟨output, ⟨hcount, houtput⟩, hsizes, setting, hsetting, rfl⟩
      exact ⟨arity_one hcount houtput, setting, hsetting, (sameSizes_iff houtput).mpr hsizes, rfl⟩
    · rintro ⟨harity, setting, hsetting, hsizes, rfl⟩
      obtain ⟨v, output, hv, houtput⟩ := exists_of_arity_one harity
      exact ⟨output, ⟨by simp [hv], houtput⟩, (sameSizes_iff houtput).mp hsizes, setting, hsetting,
        rfl⟩
  · intro _ harity setting
    obtain ⟨v, output, hv, houtput⟩ := exists_of_arity_one harity
    rw [admits_onOne_iff (· = ·) hv houtput (hkernel setting), sameSizes_iff houtput, hv,
      List.forall_mem_singleton]
  · intro harity setting
    rw [List.mem_singleton.mp harity.1]
    exact computes_onOne _

/-- The installer of softmax checks the axis behind the sizes. -/
lemma softmax_eq_checked : softmax (σ := σ) = checked fun node => do
    let output ← expectArity node 1 1
    expectSameSize node output
    let axis ← axisOf node
    if (node.inputShape 0).rank ≤ axis then
      throw (nodeFault node (.softmaxAxis axis (node.inputShape 0)))
    return overOne fun x y => Kernel.softmax x y (node.inputShape 0) axis := by
  unfold softmax
  congr 1
  funext node
  have hshape : (node.inputs.head?.map Variable.shape).getD .scalar = node.inputShape 0 := by
    rw [Node.inputShape, List.head?_eq_getElem?]
  rw [hshape]
  unfold axisOf
  cases node.parameters.isEmpty <;> rfl

/-- The installer of softmax agrees with its kernel. -/
theorem realizes_softmax (node : Node) :
    Realizes (Kind.softmax.installer (σ := σ)) node (Kind.softmax.Arity node)
      (Kind.softmax.operation node) := by
  rw [Kind.installer, softmax_eq_checked]
  refine realizes_checked (fun axis => axis < (node.inputShape 0).rank ∧ node.SameSizes)
    (fun axis => overOne fun x y => Kernel.softmax x y (node.inputShape 0) axis) ?_ ?_ ?_
  · intro found
    simp only [bind_eq_ok_iff, expectArity_eq_ok_iff, expectSameSize_eq_ok_iff, guard_eq_ok_iff,
      pure_eq_ok_iff, exists_const, Nat.not_le]
    constructor
    · rintro ⟨output, ⟨hcount, houtput⟩, hsizes, axis, haxis, hrank, rfl⟩
      exact ⟨arity_one hcount houtput, axis, haxis, ⟨hrank, (sameSizes_iff houtput).mpr hsizes⟩,
        rfl⟩
    · rintro ⟨harity, axis, haxis, ⟨hrank, hsizes⟩, rfl⟩
      obtain ⟨v, output, hv, houtput⟩ := exists_of_arity_one harity
      exact ⟨output, ⟨by simp [hv], houtput⟩, (sameSizes_iff houtput).mp hsizes, axis, haxis, hrank,
        rfl⟩
  · intro _ harity axis
    obtain ⟨v, output, hv, houtput⟩ := exists_of_arity_one harity
    have hinput : node.inputs[0]? = some v := by rw [hv, List.getElem?_cons_zero]
    -- Softmax also looks at the size of the shape itself, which is that of the input.
    rw [admits_onOne_iff (fun n m => axis < (node.inputShape 0).rank ∧
      (node.inputShape 0).elementCount = n ∧ (node.inputShape 0).elementCount = m) hv houtput
      fun _ _ => Kernel.softmax_accepts_iff, Node.elementCount_inputShape hinput,
      sameSizes_iff houtput, hv, List.forall_mem_singleton]
    exact and_congr_right fun _ => and_iff_right rfl
  · intro harity axis
    rw [List.mem_singleton.mp harity.1]
    exact computes_onOne _

end

/-! ## Two inputs -/

/-- A kernel over the views of two inputs and the output. -/
def overTwo (kernel : List Single → List Single → List Single → Except KernelFault (List Single)) :
    Computation := fun call => do
  let a ← call.inputSingles 0
  let b ← call.inputSingles 1
  let y ← call.outputSingles 0
  ofKernel ((kernel a b y).map .whole)

/-- A kernel over the views of two inputs is the kernel over all arguments. -/
lemma computes_onTwo
    (kernel : List Single → List Single → List Single → Except KernelFault (List Single)) :
    Computes (overTwo kernel) (onTwo kernel) 2 := by
  intro call inputs output hviews hlength
  obtain ⟨a, b, rfl⟩ := List.length_eq_two.mp hlength
  simp only [overTwo, hviews.input 0 a rfl, hviews.input 1 b rfl, hviews.output]
  rfl

/-- What a kernel on two operands of one length admits is told by the declared sizes. -/
lemma admits_onTwo_iff {node : Node} (hcount : node.inputs.length = 2)
    (hone : node.outputs.length = 1)
    {kernel : List Single → List Single → List Single → Except KernelFault (List Single)}
    (hkernel : ∀ a b y, (∃ values, kernel a b y = .ok values) ↔
      a.length = b.length ∧ a.length = y.length) :
    node.Admits (onTwo kernel) ↔ node.SameSizes := by
  obtain ⟨a, b, hinputs⟩ := List.length_eq_two.mp hcount
  obtain ⟨output, houtput⟩ := List.length_eq_one_iff.mp hone
  have ha : node.inputs[0]? = some a := by rw [hinputs, List.getElem?_cons_zero]
  have hb : node.inputs[1]? = some b := by
    rw [hinputs, List.getElem?_cons_succ, List.getElem?_cons_zero]
  apply Node.admits_iff houtput
  intro inputs y hdeclares
  rw [onTwo, exists_map_eq_ok_iff, hkernel, hdeclares.length_getD (by omega),
    hdeclares.length_getD (by omega), hdeclares.length_output houtput,
    Node.elementCount_inputShape ha, Node.elementCount_inputShape hb, sameSizes_iff houtput,
    hinputs, List.forall_mem_cons, List.forall_mem_singleton]
  omega

/-- The installers that take two inputs agree with kernels that need nothing but the lengths of
their operands. -/
theorem realizes_binary
    {kernel : List Single → List Single → List Single → Except KernelFault (List Single)}
    (hkernel : ∀ a b y, (∃ values, kernel a b y = .ok values) ↔
      a.length = b.length ∧ a.length = y.length) (node : Node) :
    Realizes (binary (σ := σ) kernel) node (node.inputs.length ∈ [2] ∧ node.outputs.length = 1)
      (.ok (onTwo kernel)) := by
  -- There is nothing to decode.
  have hdecoded : (.ok (onTwo kernel) : Except DescriptorFault ArgumentKernel) =
      (Except.ok ()).map fun _ : Unit => onTwo kernel := rfl
  rw [hdecoded]
  refine realizes_checked (fun _ => node.SameSizes) (fun _ => overTwo kernel) ?_ ?_ ?_
  · intro found
    simp only [bind_eq_ok_iff, expectArity_eq_ok_iff, expectSameSize_eq_ok_iff, pure_eq_ok_iff,
      exists_const, List.mem_singleton, true_and]
    constructor
    · rintro ⟨output, ⟨⟨hleast, hmost⟩, houtput⟩, hsizes, rfl⟩
      exact ⟨⟨Nat.le_antisymm hmost hleast, by simp [houtput]⟩,
        (sameSizes_iff houtput).mpr hsizes, rfl⟩
    · rintro ⟨⟨hcount, hone⟩, hsizes, rfl⟩
      obtain ⟨output, houtput⟩ := List.length_eq_one_iff.mp hone
      have hbounds : 2 ≤ node.inputs.length ∧ node.inputs.length ≤ 2 := by omega
      exact ⟨output, ⟨hbounds, houtput⟩, (sameSizes_iff houtput).mp hsizes, rfl⟩
  · exact fun _ harity _ => admits_onTwo_iff (List.mem_singleton.mp harity.1) harity.2 hkernel
  · intro harity _
    rw [List.mem_singleton.mp harity.1]
    exact computes_onTwo kernel

/-! ## The affine transform -/

section

variable {node : Node} {axis : Nat}

/-- The sizes of the arguments of a node fit the affine transform, in words. -/
def AffineFits (node : Node) (axis : Nat) : Prop :=
  ∃ outer k n : UInt64, (node.inputShape 0).splitAt? axis = some (outer, k) ∧
    (node.inputShape 1).splitAt? 1 = some (k, n) ∧
    (∀ output ∈ node.outputs, output.elementCount = (outer * n).toNat) ∧
    ∀ bias ∈ node.inputs[2]?, bias.elementCount = n.toNat

/-- The affine transform over the views of the arguments. -/
def overAffine (node : Node) (axis : Nat) : Computation := fun call => do
  let x ← call.inputSingles 0
  let w ← call.inputSingles 1
  let b ← if node.inputs.length = 3 then (call.inputSingles 2).map some else pure none
  let y ← call.outputSingles 0
  ofKernel (Kernel.affine x (node.inputShape 0) w (node.inputShape 1) b y axis)

/-- The affine transform over the views of two or three arguments is the one over all of them. -/
lemma computes_onAffine (hcount : node.inputs.length ∈ [2, 3]) :
    Computes (overAffine node axis) (onAffine node axis) node.inputs.length := by
  intro call inputs output hviews hlength
  rw [List.mem_cons, List.mem_singleton] at hcount
  obtain htwo | hthree := hcount
  · obtain ⟨x, w, rfl⟩ := List.length_eq_two.mp (hlength.trans htwo)
    simp only [overAffine, htwo, hviews.input 0 x rfl, hviews.input 1 w rfl, hviews.output]
    rfl
  · obtain ⟨x, w, b, rfl⟩ := List.length_eq_three.mp (hlength.trans hthree)
    simp only [overAffine, hthree, hviews.input 0 x rfl, hviews.input 1 w rfl,
      hviews.input 2 b rfl, hviews.output]
    rfl

/-- The sizes of an affine transform are there when the shapes can be cut and fit each other. -/
lemma affineSizes_eq_ok_iff {input weight : Shape} {outer k n : UInt64} :
    affineSizes node input weight axis = .ok (outer, k, n) ↔
      input.splitAt? axis = some (outer, k) ∧ weight.splitAt? 1 = some (k, n) := by
  unfold affineSizes
  cases input.splitAt? axis with
  | none => simp
  | some cut =>
    obtain ⟨rows, width⟩ := cut
    cases weight.splitAt? 1 with
    | none => simp
    | some cut =>
      obtain ⟨height, columns⟩ := cut
      by_cases hfits : height = width
      · subst hfits
        simp [and_assoc]
      · simp only [if_neg hfits, Option.some.injEq, Prod.mk.injEq, reduceCtorEq, false_iff]
        rintro ⟨⟨-, rfl⟩, rfl, -⟩
        exact hfits rfl

/-- The installer of the affine transform checks the sizes behind the axis. -/
lemma affine_eq_checked : affine (σ := σ) = checked fun node => do
    let output ← expectArity node 2 3
    let axis ← Parameters.baseAxis node.parameters
    let (outer, _, n) ← affineSizes node (node.inputShape 0) (node.inputShape 1) axis
    if output.elementCount ≠ (outer * n).toNat then
      throw (nodeFault node (.outputSize output.shape outer.toNat n.toNat))
    match node.inputs[2]?.map Variable.shape with
    | some bias =>
      if bias.elementCount ≠ n.toNat then throw (nodeFault node (.biasSize bias n.toNat))
    | none => pure ()
    return overAffine node axis := by
  have hshape (node : Node) (i : Nat) :
      (node.inputs[i]?.map Variable.shape).getD .scalar = node.inputShape i := rfl
  unfold affine
  simp only [List.getElem?_map, hshape]
  rfl

/-- What the affine transform admits is told by the declared sizes. -/
lemma admits_onAffine_iff (hcounted : node.Counted) (hcount : 2 ≤ node.inputs.length)
    (hone : node.outputs.length = 1) :
    node.Admits (onAffine node axis) ↔ AffineFits node axis := by
  obtain ⟨result, hresult⟩ := List.length_eq_one_iff.mp hone
  apply Node.admits_iff hresult
  intro inputs y hdeclares
  have hbias (n : UInt64) : (∀ values ∈ inputs[2]?, values.length = n.toNat) ↔
      ∀ bias ∈ node.inputs[2]?, bias.elementCount = n.toNat := by
    have hlengths : (∀ length ∈ inputs[2]?.map List.length, length = n.toNat) ↔
        ∀ count ∈ node.inputs[2]?.map Variable.elementCount, count = n.toNat := by
      rw [hdeclares.map_length_getElem? 2]
    simpa using hlengths
  -- An input has the elements of its parts, since it has less than there are words.
  have hparts {i axis : Nat} (hi : i < node.inputs.length) {outer inner : UInt64}
      (hcut : (node.inputShape i).splitAt? axis = some (outer, inner)) :
      (node.inputShape i).elementCount = (outer * inner).toNat := by
    rw [Shape.toNat_mul_of_splitAt? hcut, Nat.mod_eq_of_lt]
    rw [Node.elementCount_inputShape (List.getElem?_eq_getElem hi)]
    exact hcounted _ (List.mem_append_left _ (List.getElem_mem hi))
  rw [onAffine, Kernel.affine_accepts_iff, AffineFits, hdeclares.length_getD (by omega),
    hdeclares.length_getD (by omega), hdeclares.length_output hresult, hresult]
  simp only [List.forall_mem_singleton, hbias]
  constructor
  · rintro ⟨outer, k, n, hinput, hweight, -, -, hfits⟩
    exact ⟨outer, k, n, hinput, hweight, hfits⟩
  · rintro ⟨outer, k, n, hinput, hweight, hfits⟩
    exact ⟨outer, k, n, hinput, hweight, hparts (by omega) hinput, hparts (by omega) hweight,
      hfits⟩

/-- The installer of the affine transform agrees with its kernel. -/
theorem realizes_affine (node : Node) :
    Realizes (Kind.affine.installer (σ := σ)) node (Kind.affine.Arity node)
      (Kind.affine.operation node) := by
  rw [Kind.installer, affine_eq_checked]
  refine realizes_checked (AffineFits node) (overAffine node) ?_ ?_ ?_
  · intro found
    have hbounds : node.inputs.length ∈ [2, 3] ↔
        2 ≤ node.inputs.length ∧ node.inputs.length ≤ 3 := by
      rw [List.mem_cons, List.mem_singleton]
      omega
    rw [Kind.Arity, Kind.inputCounts, hbounds, List.length_eq_one_iff]
    simp only [AffineFits]
    cases hbias : node.inputs[2]? with
    | none =>
      simp only [Option.map_none, bind_eq_ok_iff, expectArity_eq_ok_iff, guard_eq_ok_iff,
        pure_eq_ok_iff, Prod.exists, affineSizes_eq_ok_iff, not_not, ne_eq]
      constructor
      · rintro ⟨output, ⟨hcount, houtput⟩, axis, haxis, outer, k, n, ⟨hinput, hweight⟩, hsize, rfl⟩
        exact ⟨⟨hcount, output, houtput⟩, axis, haxis,
          ⟨outer, k, n, hinput, hweight, by simpa [houtput] using hsize, by simp⟩, rfl⟩
      · rintro ⟨⟨hcount, output, houtput⟩, axis, haxis, ⟨outer, k, n, hinput, hweight, hsize, -⟩,
          rfl⟩
        exact ⟨output, ⟨hcount, houtput⟩, axis, haxis, outer, k, n, ⟨hinput, hweight⟩,
          hsize output (by simp [houtput]), rfl⟩
    | some bias =>
      simp only [Option.map_some, bind_eq_ok_iff, expectArity_eq_ok_iff, guard_eq_ok_iff,
        pure_eq_ok_iff, Prod.exists, affineSizes_eq_ok_iff, not_not, ne_eq]
      constructor
      · rintro ⟨output, ⟨hcount, houtput⟩, axis, haxis, outer, k, n, ⟨hinput, hweight⟩, hsize,
          hlength, rfl⟩
        refine ⟨⟨hcount, output, houtput⟩, axis, haxis,
          ⟨outer, k, n, hinput, hweight, by simpa [houtput] using hsize, ?_⟩, rfl⟩
        rintro _ ⟨rfl⟩
        exact hlength
      · rintro ⟨⟨hcount, output, houtput⟩, axis, haxis,
          ⟨outer, k, n, hinput, hweight, hsize, hlength⟩, rfl⟩
        exact ⟨output, ⟨hcount, houtput⟩, axis, haxis, outer, k, n, ⟨hinput, hweight⟩,
          hsize output (by simp [houtput]), hlength bias rfl, rfl⟩
  · intro hcounted harity axis
    have hcount := harity.1
    rw [Kind.inputCounts, List.mem_cons, List.mem_singleton] at hcount
    exact admits_onAffine_iff hcounted (by omega) harity.2
  · exact fun harity _ => computes_onAffine harity.1

/-- An affine transform that takes its values runs to its end if the node is in range. -/
lemma exists_whole_onAffine (hrange : node.InRange) (hcount : 2 ≤ node.inputs.length)
    {inputs : List (List Single)} {output : List Single} {written : Kernel.Written Single}
    (h : onAffine node axis inputs output = .ok written) :
    ∃ values, written = .whole values := by
  obtain ⟨outer, k, n, hrows, hcolumns, hinput, hweight, houtput, hbias, rfl⟩ :=
    Kernel.affine_eq_ok_iff.mp h
  have hshape {i : Nat} (hi : i < node.inputs.length) :
      node.inputShape i = node.inputs[i].shape := by
    rw [Node.inputShape, List.getElem?_eq_getElem hi]
    rfl
  have hmem {i : Nat} (hi : i < node.inputs.length) :
      node.inputs[i] ∈ node.inputs ++ node.outputs :=
    List.mem_append_left _ (List.getElem_mem hi)
  have hsizes : affineSizes node (node.inputShape 0) (node.inputShape 1) axis = .ok (outer, k, n) :=
    affineSizes_eq_ok_iff.mpr ⟨hrows, hcolumns⟩
  rw [hshape (by omega), hshape (by omega)] at hsizes
  obtain ⟨-, hinputExact, hweightExact, houtputExact⟩ :=
    hrange.affine _ (hmem (by omega)) _ (hmem (by omega)) axis outer k n hsizes
  rw [Shape.toNat_mul_of_lt hinputExact] at hinput
  rw [Shape.toNat_mul_of_lt hweightExact] at hweight
  rw [Shape.toNat_mul_of_lt houtputExact] at houtput
  exact ⟨_, Kernel.loop_setRow_eq ⟨hinput, hweight, houtput⟩ (hinput ▸ hinputExact)
    (hweight ▸ hweightExact) (houtput ▸ houtputExact) hbias⟩

end

/-! ## All kinds -/

/-- **Agreement**: every default installer agrees with its kernel.

**Proof sketch.** The installers have four forms: one input and a setting, softmax, two inputs, and
the affine transform. For each form, what the installer checks and what the kernel checks on values
of the declared sizes come down to the same conditions. -/
theorem Kind.realizes (kind : Kind) (node : Node) :
    Realizes (kind.installer (σ := σ)) node (kind.Arity node) (kind.operation node) := by
  have hunary {op : String} {f : Single → Single} (_ : Unit) (x y : List Single) :
      (∃ values, Kernel.unary op f x y = .ok values) ↔ x.length = y.length :=
    Kernel.unary_accepts_iff
  have hscalar {op : String} {f : Single → Single → Single} (value : Single) (x y : List Single) :
      (∃ values, Kernel.unary op (f value) x y = .ok values) ↔ x.length = y.length :=
    Kernel.unary_accepts_iff
  cases kind with
  | affine => exact realizes_affine node
  | softmax => exact realizes_softmax node
  | relu | sigmoid | tanh =>
    rw [Kind.installer, unary_eq_single]
    exact realizes_single hunary node
  | leakyRelu =>
    rw [Kind.installer, leakyRelu_eq_single]
    exact realizes_single hscalar node
  | addScalar | mulScalar =>
    rw [Kind.installer, withScalar_eq_single]
    exact realizes_single hscalar node
  | add2 | sub2 | mul2 => exact realizes_binary (fun _ _ _ => Kernel.binary_accepts_iff) node

/-- A kernel of one of the forms that always run to their end gives whole values. -/
lemma exists_whole_of_map {kernel : Except KernelFault (List Single)}
    {written : Kernel.Written Single} (h : kernel.map .whole = .ok written) :
    ∃ values, written = .whole values := by
  obtain ⟨values, -, rfl⟩ := map_eq_ok_iff.mp h
  exact ⟨values, rfl⟩

/-- **Running to the end**: on a node in range with the right arguments, a kernel of any kind that
takes all values of the declared sizes runs to its end on all of them.

**Proof sketch.** Only the affine transform can break off. On a node in range its sizes are exact,
so the lengths that it compared with products in words are the exact products
(`Kernel.loop_setRow_eq`). -/
theorem Kind.completes_iff {kind : Kind} {node : Node} {operation : ArgumentKernel}
    (hrange : node.InRange) (harity : kind.Arity node)
    (hoperation : kind.operation node = .ok operation) :
    node.Completes operation ↔ node.Admits operation := by
  constructor
  · intro hcompletes inputs output hdeclares
    obtain ⟨values, hvalues⟩ := hcompletes inputs output hdeclares
    exact ⟨_, hvalues⟩
  · intro hadmits inputs output hdeclares
    obtain ⟨written, hwritten⟩ := hadmits inputs output hdeclares
    have hwhole : ∃ values, written = .whole values := by
      cases kind with
      | affine =>
        obtain ⟨axis, -, rfl⟩ := map_eq_ok_iff.mp hoperation
        have hcount : node.inputs.length ∈ [2, 3] := harity.1
        rw [List.mem_cons, List.mem_singleton] at hcount
        exact exists_whole_onAffine hrange (by omega) hwritten
      | leakyRelu | softmax | addScalar | mulScalar =>
        obtain ⟨setting, -, rfl⟩ := map_eq_ok_iff.mp hoperation
        exact exists_whole_of_map hwritten
      | relu | sigmoid | tanh | add2 | sub2 | mul2 =>
        cases hoperation
        exact exists_whole_of_map hwritten
    obtain ⟨values, rfl⟩ := hwhole
    exact ⟨values, hwritten⟩

end Builtin

/-! ## Nodes in range -/

/-- A node without an empty dimension is in range if all its arguments have fewer than 2 to the 32
elements: the product of two such counts is a word. -/
theorem Node.inRange_of_lt {node : Node}
    (hzero : ∀ v ∈ node.inputs ++ node.outputs, 0 ∉ v.shape.dims)
    (hcount : ∀ v ∈ node.inputs ++ node.outputs, v.elementCount < 0x100000000) :
    node.InRange := by
  have hword : ∀ v ∈ node.inputs ++ node.outputs, v.elementCount < wordLimit := fun v hv =>
    Nat.lt_trans (hcount v hv) (by rw [wordLimit]; decide)
  have hshapes : ∀ v ∈ node.inputs ++ node.outputs, v.shape.InRange := fun v hv =>
    Shape.inRange_of_lt (hzero v hv) (hword v hv)
  refine ⟨hshapes, fun input hinput weight hweight axis outer k n hsizes => ?_⟩
  obtain ⟨hrows, hcolumns⟩ := affineSizes_eq_ok_iff.mp hsizes
  obtain ⟨houter, hk, -⟩ := (hshapes input hinput).toNat_of_splitAt? hrows
  obtain ⟨-, hn, -⟩ := (hshapes weight hweight).toNat_of_splitAt? hcolumns
  refine ⟨⟨houter, hk, hn⟩, ?_⟩
  have hpart {v : Variable} (hv : v ∈ node.inputs ++ node.outputs) {part : List Nat}
      (hpart : part <:+: v.shape.dims) : Shape.product part < 0x100000000 :=
    Nat.lt_of_le_of_lt (Shape.product_infix_le (hzero v hv) hpart) (hcount v hv)
  have houterLt := hpart hinput (List.take_prefix axis input.shape.dims).isInfix
  have hkLt := hpart hinput (List.drop_suffix axis input.shape.dims).isInfix
  have hnLt := hpart hweight (List.drop_suffix 1 weight.shape.dims).isInfix
  rw [← houter] at houterLt
  rw [← hk] at hkLt
  rw [← hn] at hnLt
  rw [wordLimit]
  exact ⟨Nat.mul_lt_mul'' houterLt hkLt, Nat.mul_lt_mul'' hkLt hnLt, Nat.mul_lt_mul'' houterLt hnLt⟩

end Inference
