import Inference.Kernel.Affine
import Inference.Kernel.Elementwise
import Inference.Kernel.Softmax
import Inference.Proofs.Products
import Inference.Proofs.Traversal

set_option autoImplicit false
set_option relaxedAutoImplicit false

/-!
# What kernels accept

A kernel refuses its operands or works on them, and which of the two depends on their lengths and
the shapes and axes it is told, never on the elements. This holds for every interpretation of the
arithmetic. The affine transform compares lengths with products in words, so that a product which
wraps can pass for the length of an operand.

## Main results

* `Kernel.unary_accepts_iff`, `Kernel.binary_accepts_iff`, `Kernel.softmax_accepts_iff`,
  `Kernel.affine_accepts_iff` — when each form of kernel works on its operands.
* `Kernel.affine_eq_ok_iff` — what the affine transform then does.
-/

namespace Inference

namespace Kernel

variable {α : Type}

/-! ## Elementwise kernels -/

/-- A length passes its check when it is the expected one. -/
lemma checkLength_eq_ok_iff {operand : String} {expected actual : Nat} {u : Unit} :
    checkLength operand expected actual = .ok u ↔ expected = actual := by
  unfold checkLength
  by_cases h : expected = actual <;> simp [h]

/-- A kernel on one operand gives values when the operand is as long as the output. -/
theorem unary_accepts_iff {op : String} {f : α → α} {input output : List α} :
    (∃ values, unary op f input output = .ok values) ↔ input.length = output.length := by
  simp only [unary, bind_eq_ok_iff, checkLength_eq_ok_iff, pure_eq_ok_iff, exists_const,
    exists_and_left, exists_eq, and_true]

/-- A kernel on two operands gives values when both are as long as the output. -/
theorem binary_accepts_iff {op : String} {f : α → α → α} {left right output : List α} :
    (∃ values, binary op f left right output = .ok values) ↔
      left.length = right.length ∧ left.length = output.length := by
  simp only [binary, bind_eq_ok_iff, checkLength_eq_ok_iff, pure_eq_ok_iff, exists_const,
    exists_and_left, exists_eq, and_true]

/-! ## Softmax -/

variable [Scalar α]

/-- Softmax gives values along an axis of the shape, when both operands have its elements. -/
theorem softmax_accepts_iff {input output : List α} {shape : Shape} {axis : Nat} :
    (∃ values, softmax input output shape axis = .ok values) ↔
      axis < shape.rank ∧ shape.elementCount = input.length ∧
        shape.elementCount = output.length := by
  rw [← Shape.exists_dim?_iff]
  simp only [softmax, bind_eq_ok_iff, orFault_eq_ok_iff, checkLength_eq_ok_iff, exists_const]
  constructor
  · rintro ⟨values, size, hsize, hinput, houtput, -⟩
    exact ⟨⟨size, hsize⟩, hinput, houtput⟩
  · rintro ⟨⟨size, hsize⟩, hinput, houtput⟩
    by_cases hempty : size = 0
    · exact ⟨_, size, hsize, hinput, houtput, by rw [if_pos hempty]; rfl⟩
    · exact ⟨_, size, hsize, hinput, houtput, by rw [if_neg hempty]; rfl⟩

/-! ## The affine transform -/

/-- The affine transform works on its operands when the input can be cut at the axis, the weight has
as many rows as an input row has elements, and all operands have the elements that this asks for,
counted in words. It then sets the output rows. -/
theorem affine_eq_ok_iff {input weight output : List α} {inputShape weightShape : Shape}
    {bias : Option (List α)} {axis : Nat} {written : Written α} :
    affine input inputShape weight weightShape bias output axis = .ok written ↔
      ∃ outer k n : UInt64, inputShape.splitAt? axis = some (outer, k) ∧
        weightShape.splitAt? 1 = some (k, n) ∧ input.length = (outer * k).toNat ∧
        weight.length = (k * n).toNat ∧ output.length = (outer * n).toNat ∧
        (∀ values ∈ bias, values.length = n.toNat) ∧
        written = loop (setRow input weight bias k n) outer.toNat 0 output := by
  cases bias with
  | none =>
    simp only [affine, bind_eq_ok_iff, orFault_eq_ok_iff, guard_eq_ok_iff, checkLength_eq_ok_iff,
      pure_eq_ok_iff, exists_const, Prod.exists]
    constructor
    · rintro ⟨outer, k, hinputShape, rows, n, hweightShape, hrows, hinput, hweight, houtput, rfl⟩
      obtain rfl : rows = k := not_not.mp hrows
      exact ⟨outer, rows, n, hinputShape, hweightShape, hinput.symm, hweight.symm, houtput.symm,
        by simp, rfl⟩
    · rintro ⟨outer, k, n, hinputShape, hweightShape, hinput, hweight, houtput, -, rfl⟩
      exact ⟨outer, k, hinputShape, k, n, hweightShape, not_not.mpr rfl, hinput.symm,
        hweight.symm, houtput.symm, rfl⟩
  | some values =>
    simp only [affine, bind_eq_ok_iff, orFault_eq_ok_iff, guard_eq_ok_iff, checkLength_eq_ok_iff,
      pure_eq_ok_iff, exists_const, Prod.exists]
    constructor
    · rintro ⟨outer, k, hinputShape, rows, n, hweightShape, hrows, hinput, hweight, houtput, hbias,
        rfl⟩
      obtain rfl : rows = k := not_not.mp hrows
      exact ⟨outer, rows, n, hinputShape, hweightShape, hinput.symm, hweight.symm, houtput.symm,
        by simp [hbias], rfl⟩
    · rintro ⟨outer, k, n, hinputShape, hweightShape, hinput, hweight, houtput, hbias, rfl⟩
      exact ⟨outer, k, hinputShape, k, n, hweightShape, not_not.mpr rfl, hinput.symm,
        hweight.symm, houtput.symm, (hbias values rfl).symm, rfl⟩

/-- When the affine transform works on its operands. -/
theorem affine_accepts_iff {input weight output : List α} {inputShape weightShape : Shape}
    {bias : Option (List α)} {axis : Nat} :
    (∃ written, affine input inputShape weight weightShape bias output axis = .ok written) ↔
      ∃ outer k n : UInt64, inputShape.splitAt? axis = some (outer, k) ∧
        weightShape.splitAt? 1 = some (k, n) ∧ input.length = (outer * k).toNat ∧
        weight.length = (k * n).toNat ∧ output.length = (outer * n).toNat ∧
        ∀ values ∈ bias, values.length = n.toNat := by
  simp only [affine_eq_ok_iff]
  constructor
  · rintro ⟨written, outer, k, n, hinputShape, hweightShape, hinput, hweight, houtput, hbias, -⟩
    exact ⟨outer, k, n, hinputShape, hweightShape, hinput, hweight, houtput, hbias⟩
  · rintro ⟨outer, k, n, hinputShape, hweightShape, hinput, hweight, houtput, hbias⟩
    exact ⟨_, outer, k, n, hinputShape, hweightShape, hinput, hweight, houtput, hbias, rfl⟩

end Kernel

end Inference
