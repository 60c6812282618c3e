import Inference.Kernel.Fault
import Inference.Kernel.Rows
import Inference.Kernel.Scalar
import Inference.Traverse

set_option autoImplicit false
set_option relaxedAutoImplicit false

/-!
# Softmax

Along an axis of `size` elements, the exponentials of the elements less their maximum, divided by
their sum. The dimensions before the axis cut the input into blocks; a block has `size` rows of
`inner` elements, one element for each line along the axis. All lines of a block are worked on
side by side, a row at a time, so each line is still taken from its first to its last element.

## Main definitions

* `Kernel.softmaxBlock` — the lines of one block.
* `Kernel.softmax` — the whole transform, with its checks.
-/

namespace Inference

namespace Kernel

variable {α : Type} [Scalar α]

/-- An exponential over its sum; it stays as it is unless the sum is positive. -/
def normalize (sum e : α) : α :=
  if Scalar.less Scalar.zero sum then Scalar.mul e (Scalar.div Scalar.one sum) else e

/-- The softmax of `inner` lines that run down the rows of a block. -/
def softmaxBlock (size inner : Nat) (block : List α) : List α :=
  let lines := rows size inner block
  let maxima := lines.foldl (List.zipWith Scalar.larger)
    (List.replicate inner Scalar.negInfinity)
  let exponentials := lines.map
    (List.zipWith (fun largest x => Scalar.exp (Scalar.sub x largest)) maxima)
  let sums := exponentials.foldl (List.zipWith Scalar.add) (List.replicate inner Scalar.zero)
  (exponentials.map (List.zipWith normalize sums)).flatten

/-- The softmax of `input` along `axis`. Nothing is written when the axis has no elements. -/
def softmax (input output : List α) (shape : Shape) (axis : Nat) :
    Except KernelFault (List α) := do
  let size ← orFault (shape.dim? axis) (.axisOutOfRange "softmax" axis shape.rank)
  checkLength "softmax (input)" shape.elementCount input.length
  checkLength "softmax (output)" shape.elementCount output.length
  if size = 0 then return output
  let inner := Shape.product (shape.dims.drop (axis + 1))
  let outer := input.length / max (size * inner) 1
  return ((rows outer (size * inner) input).map (softmaxBlock size inner)).flatten

end Kernel

end Inference
