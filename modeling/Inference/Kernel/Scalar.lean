import Inference.Single

set_option autoImplicit false
set_option relaxedAutoImplicit false

/-!
# Scalars

The operations that kernels use on elements. Kernels are written for any interpretation of them,
so what is proved about a kernel does not depend on how single precision rounds.

## Main definitions

* `Scalar` — the operations.
* the instance for `Single`, by the machine's single-precision arithmetic.
-/

namespace Inference

/-- The operations that kernels use on elements. -/
class Scalar (α : Type) where
  zero : α
  one : α
  negInfinity : α
  add : α → α → α
  sub : α → α → α
  mul : α → α → α
  div : α → α → α
  /-- The larger of two numbers; a value that is no number loses. -/
  larger : α → α → α
  neg : α → α
  exp : α → α
  tanh : α → α
  /-- Whether the first is less than the second. -/
  less : α → α → Bool

namespace Single

/-- An operation on machine values as one on patterns. -/
def lift (f : Float32 → Float32) (x : Single) : Single :=
  ofValue (f x.value)

/-- A binary operation on machine values as one on patterns. -/
def lift₂ (f : Float32 → Float32 → Float32) (x y : Single) : Single :=
  ofValue (f x.value y.value)

/-- Whether the first value is less than the second; no value compares with a NaN. -/
def less (x y : Single) : Bool :=
  decide (x.value < y.value)

/-- The larger of two values. A NaN loses against any number. -/
def larger (x y : Single) : Single :=
  if x.isNaN then y
  else if y.isNaN then x
  else if x.less y then y
  else x

instance : Scalar Single where
  zero := zero
  one := one
  negInfinity := negInfinity
  add := lift₂ (· + ·)
  sub := lift₂ (· - ·)
  mul := lift₂ (· * ·)
  div := lift₂ (· / ·)
  larger := larger
  neg := lift (fun x => -x)
  exp := lift Float32.exp
  tanh := lift Float32.tanh
  less := less

end Single

end Inference
