import Inference.Kernel.Fault
import Inference.Kernel.Loop
import Inference.Kernel.Scalar
import Inference.Traverse

set_option autoImplicit false
set_option relaxedAutoImplicit false

/-!
# Affine transform

The input is flattened at an axis into rows of `k` elements, the weight into `k` rows of `n`
elements. An output row starts as the bias, or as zeros, and the weight rows are added to it one
by one, each times the input element it belongs to. So every output element is accumulated from
left to right, and rounding happens in that order.

The sizes are products of dimensions and the positions products of sizes, all in machine words. The
checks compare lengths with these words, so a product that wraps can pass them. The transform then
breaks off where it reaches for a row or an element that is not there.

## Main definitions

* `Kernel.addRow`, `Kernel.setRow` — one step on an output row, and one output row.
* `Kernel.affine` — the whole transform, with its checks.
-/

namespace Inference

namespace Kernel

variable {α : Type} [Scalar α]

/-- `row` with `a` times `weights` added to it. -/
def addScaled (row : List α) (a : α) (weights : List α) : List α :=
  row.zipWith (fun sum w => Scalar.add sum (Scalar.mul a w)) weights

/-- Output row `i` with weight row `p` added to it, times the input element at its position. -/
def addRow (input weight : List α) (k n i p : UInt64) (row : List α) : Written α :=
  match input[(i * k + p).toNat]?, between? weight (p * n).toNat ((p + 1) * n).toNat with
  | some a, some weights => .whole (addScaled row a weights)
  | _, _ => .part row

/-- What an output row starts as: the bias, or as many zeros as it has elements. -/
def startRow (bias : Option (List α)) (row : List α) : List α :=
  bias.getD (row.map fun _ => Scalar.zero)

/-- The output with row `i` set to what it starts as, and then all weight rows added to the row. -/
def setRow (input weight : List α) (bias : Option (List α)) (k n i : UInt64) (output : List α) :
    Written α :=
  match between? output (i * n).toNat ((i + 1) * n).toNat with
  | some row =>
    let written := loop (addRow input weight k n i) k.toNat 0 (startRow bias row)
    ⟨splice output (i * n).toNat written.values, written.complete⟩
  | none => .part output

/-- The affine transform of `input`, flattened at `baseAxis`. -/
def affine (input : List α) (inputShape : Shape) (weight : List α) (weightShape : Shape)
    (bias : Option (List α)) (output : List α) (baseAxis : Nat) :
    Except KernelFault (Written α) := do
  let (outer, k) ← orFault (inputShape.splitAt? baseAxis)
    (.axisOutOfRange "affine" baseAxis inputShape.rank)
  let mismatch : KernelFault := .shapeMismatch "affine" inputShape weightShape
  let (weightRows, n) ← orFault (weightShape.splitAt? 1) mismatch
  if weightRows ≠ k then throw mismatch
  checkLength "affine (input)" (outer * k).toNat input.length
  checkLength "affine (weight)" (k * n).toNat weight.length
  checkLength "affine (output)" (outer * n).toNat output.length
  match bias with
  | some values => checkLength "affine (bias)" n.toNat values.length
  | none => pure ()
  return loop (setRow input weight bias k n) outer.toNat 0 output

end Kernel

end Inference
