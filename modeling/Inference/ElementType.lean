set_option autoImplicit false
set_option relaxedAutoImplicit false

/-!
# Element types

The encodings that a variable's elements can have.

## Main definitions

* `ElementType` — the four encodings.
* `ElementType.code`, `ElementType.ofCode?` — their four-bit codes.
* `ElementType.byteSize` — bytes per element.
-/

namespace Inference

/-- How the elements of a variable are encoded. -/
inductive ElementType where
  /-- IEEE 754 single precision. -/
  | float
  /-- Fixed point in 16 bits; each variable has its own binary point. -/
  | fixed16
  /-- Fixed point in 8 bits; each variable has its own binary point. -/
  | fixed8
  /-- Signs only, one byte each. -/
  | sign
deriving DecidableEq

namespace ElementType

/-- The four-bit code of an encoding. -/
def code : ElementType → Nat
  | float => 0
  | fixed16 => 1
  | fixed8 => 2
  | sign => 3

/-- The encoding with a given code. -/
def ofCode? : Nat → Option ElementType
  | 0 => some float
  | 1 => some fixed16
  | 2 => some fixed8
  | 3 => some sign
  | _ => none

/-- Bytes per element. -/
def byteSize : ElementType → Nat
  | float => 4
  | fixed16 => 2
  | fixed8 => 1
  | sign => 1

/-- The word that tables and messages use. -/
def label : ElementType → String
  | float => "float"
  | fixed16 => "fixed16"
  | fixed8 => "fixed8"
  | sign => "sign"

/-- The name in structured output. -/
def name : ElementType → String
  | float => "F32"
  | fixed16 => "Fixed16"
  | fixed8 => "Fixed8"
  | sign => "Sign"

/-- A code is read back exactly as the encoding it belongs to. -/
theorem ofCode?_eq_some_iff {n : Nat} {type : ElementType} :
    ofCode? n = some type ↔ n = type.code := by
  constructor
  · intro h
    unfold ofCode? at h
    split at h <;> simp_all <;> subst h <;> rfl
  · rintro rfl
    cases type <;> rfl

end ElementType

end Inference
