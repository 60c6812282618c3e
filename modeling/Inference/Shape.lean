import Inference.Bytes
import Inference.ElementType

set_option autoImplicit false
set_option relaxedAutoImplicit false

/-!
# Shapes

The dimensions of a variable, outermost first. Element counts are exact natural numbers; the
checked count refuses a shape as soon as the product of its leading dimensions leaves the range
of a machine word. The counts on both sides of an axis are not checked: they are words, and wrap.

## Main definitions

* `Shape` — a list of dimensions.
* `Shape.elementCount`, `Shape.elementCount?` — the exact and the checked number of elements.
* `Shape.wordProduct` — a product of dimensions in machine words.
* `Shape.splitAt?` — the element counts before and from an axis, in machine words.
-/

namespace Inference

/-- The dimensions of a variable, outermost first. -/
structure Shape where
  dims : List Nat
deriving DecidableEq

namespace Shape

/-- The product of a list of dimensions. -/
def product (dims : List Nat) : Nat :=
  dims.foldl (· * ·) 1

/-- The product of a list of dimensions, absent once a leading part of it, times `start`, reaches
the word limit. -/
def productFrom? (start : Nat) : List Nat → Option Nat
  | [] => some start
  | dim :: rest => if start * dim < wordLimit then productFrom? (start * dim) rest else none

/-- The product of dimensions as a machine multiplies them, from the left and without a check. -/
def wordProduct (dims : List Nat) : UInt64 :=
  dims.foldl (fun product dim => product * UInt64.ofNat dim) 1

/-- A shape without dimensions, of one element. -/
def scalar : Shape := ⟨[]⟩

/-- A shape of one dimension. -/
def vector (length : Nat) : Shape := ⟨[length]⟩

/-- A shape of rows and columns. -/
def matrix (rows columns : Nat) : Shape := ⟨[rows, columns]⟩

/-- Number of dimensions. -/
def rank (shape : Shape) : Nat :=
  shape.dims.length

/-- The dimension along an axis. -/
def dim? (shape : Shape) (axis : Nat) : Option Nat :=
  shape.dims[axis]?

/-- Number of elements; one for a scalar. -/
def elementCount (shape : Shape) : Nat :=
  product shape.dims

/-- Number of elements, absent if multiplying the dimensions from the left leaves the range of a
word at any step. -/
def elementCount? (shape : Shape) : Option Nat :=
  productFrom? 1 shape.dims

/-- Bytes that the elements take in a given encoding. -/
def byteSize (shape : Shape) (type : ElementType) : Nat :=
  shape.elementCount * type.byteSize

/-- The element counts of the dimensions before `axis` and of those from it on, in machine words.
Absent if `axis` exceeds the rank. -/
def splitAt? (shape : Shape) (axis : Nat) : Option (UInt64 × UInt64) :=
  if axis ≤ shape.rank then
    some (wordProduct (shape.dims.take axis), wordProduct (shape.dims.drop axis))
  else none

/-- The dimensions in parentheses. -/
def text (shape : Shape) : String :=
  "(" ++ ", ".intercalate (shape.dims.map toString) ++ ")"

end Shape

end Inference
