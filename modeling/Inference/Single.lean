import Inference.Bytes

set_option autoImplicit false
set_option relaxedAutoImplicit false

/-!
# Single-precision values

A value is kept as its 32-bit pattern, so that moving it between regions never changes a bit, not
even of a NaN. Arithmetic goes through the machine's single-precision operations.

## Main definitions

* `Single` — a 32-bit pattern.
* `Single.bytes`, `Single.ofBytes?` — the four bytes of a value, and the values in a region.
-/

namespace Inference

/-- A single-precision value, by its bit pattern. -/
structure Single where
  bits : UInt32
deriving DecidableEq

namespace Single

/-- The machine value of a pattern. -/
def value (x : Single) : Float32 :=
  Float32.ofBits x.bits

/-- The pattern of a machine value. -/
def ofValue (x : Float32) : Single :=
  ⟨x.toBits⟩

/-- A pattern of the largest exponent with a fraction that is not zero. -/
def isNaN (x : Single) : Bool :=
  0x7f800000 < x.bits.toNat % 0x80000000

/-- Zero. -/
def zero : Single := ⟨0⟩

/-- One. -/
def one : Single := ⟨0x3f800000⟩

/-- Negative infinity. -/
def negInfinity : Single := ⟨0xff800000⟩

/-! ## Regions of values -/

/-- The four bytes of a value, least significant first. -/
def bytes (x : Single) : Bytes :=
  Bytes.ofNatLE 4 x.bits.toNat

/-- The bytes of a list of values, one after another. -/
def bytesOf (xs : List Single) : Bytes :=
  xs.flatMap bytes

/-- The values a region is made of, absent unless its length is a multiple of four. -/
def ofBytes? : Bytes → Option (List Single)
  | [] => some []
  | b₀ :: b₁ :: b₂ :: b₃ :: rest =>
    (ofBytes? rest).map (⟨UInt32.ofNat (Bytes.toNatLE [b₀, b₁, b₂, b₃])⟩ :: ·)
  | _ => none

end Single

end Inference
