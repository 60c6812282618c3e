import Inference.Shape

set_option autoImplicit false
set_option relaxedAutoImplicit false

/-!
# Kernel faults

Why a kernel refuses its operands. A kernel checks everything before it computes anything.

## Main definitions

* `KernelFault`, `KernelFault.message` — the faults and their wording.
* `Kernel.checkLength` — a length that must have an expected value.
-/

namespace Inference

/-- Why a kernel refuses its operands. -/
inductive KernelFault where
  /-- An operand has another number of elements than its shape or the other operands ask for. -/
  | lengthMismatch (operand : String) (expected actual : Nat)
  | shapeMismatch (op : String) (left right : Shape)
  | axisOutOfRange (op : String) (axis rank : Nat)
  /-- A view was asked for that the element type does not allow. -/
  | unsupportedElementType (op : String) (type : ElementType)
deriving DecidableEq

/-- The wording of a kernel fault. -/
def KernelFault.message : KernelFault → String
  | .lengthMismatch operand expected actual =>
    s!"{operand}: expected {expected} elements, got {actual}"
  | .shapeMismatch op left right =>
    s!"incompatible shapes for {op}: {left.text} vs {right.text}"
  | .axisOutOfRange op axis rank => s!"{op}: axis {axis} out of range for rank {rank}"
  | .unsupportedElementType op type => s!"unsupported dtype {type.label} for operation {op}"

/-- Checks that an operand has the expected number of elements. -/
def Kernel.checkLength (operand : String) (expected actual : Nat) : Except KernelFault Unit :=
  if expected = actual then .ok () else .error (.lengthMismatch operand expected actual)

end Inference
