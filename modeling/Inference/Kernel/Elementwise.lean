import Inference.Kernel.Fault
import Inference.Kernel.Scalar

set_option autoImplicit false
set_option relaxedAutoImplicit false

/-!
# Elementwise kernels

Activations, arithmetic on two variables, and arithmetic with a constant. Each kernel takes the
old contents of its output, of which only the length matters, and gives the new contents.

## Main definitions

* `Kernel.unary`, `Kernel.binary` — the two forms.
* `Kernel.relu`, `Kernel.leakyRelu`, `Kernel.sigmoid`, `Kernel.tanh` — activations.
* `Kernel.add2`, `Kernel.sub2`, `Kernel.mul2`, `Kernel.addScalar`, `Kernel.mulScalar` —
  arithmetic.
-/

namespace Inference

namespace Kernel

variable {α : Type} [Scalar α]

/-- Applies `f` to every element. -/
def unary (op : String) (f : α → α) (input output : List α) : Except KernelFault (List α) := do
  checkLength op input.length output.length
  return input.map f

/-- Applies `f` to the elements at equal positions; there is no broadcasting. -/
def binary (op : String) (f : α → α → α) (left right output : List α) :
    Except KernelFault (List α) := do
  checkLength op left.length right.length
  checkLength op left.length output.length
  return left.zipWith f right

/-! ## Activations -/

/-- The larger of the element and zero. -/
def relu : (input output : List α) → Except KernelFault (List α) :=
  unary "relu" fun x => Scalar.larger x Scalar.zero

/-- The element where it is positive, and `slope` times it elsewhere. -/
def leakyRelu (slope : α) : (input output : List α) → Except KernelFault (List α) :=
  unary "leaky_relu" fun x => if Scalar.less Scalar.zero x then x else Scalar.mul slope x

/-- The logistic function. -/
def sigmoid : (input output : List α) → Except KernelFault (List α) :=
  unary "sigmoid" fun x =>
    Scalar.div Scalar.one (Scalar.add Scalar.one (Scalar.exp (Scalar.neg x)))

/-- The hyperbolic tangent. -/
def tanh : (input output : List α) → Except KernelFault (List α) :=
  unary "tanh" Scalar.tanh

/-! ## Arithmetic -/

/-- Sums of elements. -/
def add2 : (left right output : List α) → Except KernelFault (List α) :=
  binary "add2" Scalar.add

/-- Differences of elements. -/
def sub2 : (left right output : List α) → Except KernelFault (List α) :=
  binary "sub2" Scalar.sub

/-- Products of elements. -/
def mul2 : (left right output : List α) → Except KernelFault (List α) :=
  binary "mul2" Scalar.mul

/-- Sums with a constant. -/
def addScalar (value : α) : (input output : List α) → Except KernelFault (List α) :=
  unary "add_scalar" fun x => Scalar.add x value

/-- Products with a constant. -/
def mulScalar (value : α) : (input output : List α) → Except KernelFault (List α) :=
  unary "mul_scalar" fun x => Scalar.mul x value

end Kernel

end Inference
