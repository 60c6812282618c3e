import Inference.Bytes
import Inference.Descriptor.Fault
import Inference.Single

set_option autoImplicit false
set_option relaxedAutoImplicit false

/-!
# Operator parameters

The bytes that follow the head of a function entry belong to its operator. Three forms occur: a
base axis, an axis, and a scalar operand. Bytes after the field are ignored.

## Main definitions

* `Parameters.baseAxis`, `Parameters.axis`, `Parameters.scalar` — the field, or what is wrong.
-/

namespace Inference

namespace Parameters

/-- The signed field at the start of the parameters, which must not be negative. -/
def countField (op : Operator) (field : String) (parameters : Bytes) :
    Except DescriptorFault Nat :=
  match parameters.signedAt? 0 with
  | none => .error (.invalidParameters op (.missingField field 0 parameters.length))
  | some value =>
    if value < 0 then .error (.invalidParameters op (.negativeField field value))
    else .ok value.toNat

/-- The axis at which an affine transform flattens its input. -/
def baseAxis (parameters : Bytes) : Except DescriptorFault Nat :=
  countField .affine "base_axis" parameters

/-- The axis that an operator works along. -/
def axis (op : Operator) (parameters : Bytes) : Except DescriptorFault Nat :=
  countField op "axis" parameters

/-- The scalar operand of an operator. -/
def scalar (op : Operator) (parameters : Bytes) : Except DescriptorFault Single :=
  match parameters.wordAt? 0 4 with
  | none => .error (.invalidParameters op (.missingScalar parameters.length))
  | some bits => .ok ⟨UInt32.ofNat bits⟩

end Parameters

end Inference
