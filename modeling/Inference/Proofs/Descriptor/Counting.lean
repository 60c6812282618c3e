import Inference.Proofs.Descriptor.Fields
import Inference.Proofs.Descriptor.Refusal
import Mathlib.Algebra.BigOperators.Ring.List
import Mathlib.Algebra.GroupWithZero.Nat
import Mathlib.Data.List.TakeWhile

set_option autoImplicit false
set_option relaxedAutoImplicit false

/-!
# Counting elements

The elements of a shape are counted by multiplying its dimensions from the left, and the count is
given up as soon as it leaves the range of a word. If no dimension is empty, products only grow, so
the count is there exactly if the product of all dimensions fits a word, in whatever order they
stand. An empty dimension makes the product zero, but it helps only those behind it: the dimensions
in front of the first empty one have to fit a word all the same, and a descriptor with a shape
whose do not is refused.

## Main definitions

* `Shape.leading` — the dimensions in front of the first empty one.
* `Shape.Overflows` — a shape that has no count in words, of elements or of bytes.
* `Shape.CountsLeading` — what decides whether a shape is counted, and what the count is.

## Main results

* `Shape.elementCount?_eq_some_iff_leading` — the leading dimensions decide.
* `Shape.elementCount?_perm` — the order of dimensions does not matter unless one is empty.
* `Network.decode_counts_leading` — how shapes are counted, and which ones are refused.
* `Network.not_counts_product` — the product alone does not decide.
-/

namespace Inference

open Format

namespace Shape

/-! ## Leading dimensions -/

/-- The dimensions in front of the first empty one. -/
def leading (dims : List Nat) : List Nat :=
  dims.takeWhile (· ≠ 0)

/-- A dimension that is not empty is a leading one if it stands in front. -/
lemma leading_cons_of_pos {dim : Nat} (h : dim ≠ 0) (dims : List Nat) :
    leading (dim :: dims) = dim :: leading dims :=
  List.takeWhile_cons_of_pos (by simpa using h)

/-- The leading dimensions stand in front. -/
lemma leading_prefix (dims : List Nat) : leading dims <+: dims :=
  List.takeWhile_prefix _

/-- No leading dimension is empty. -/
lemma zero_not_mem_leading (dims : List Nat) : 0 ∉ leading dims := by
  intro h
  simpa using List.mem_takeWhile_imp h

/-- All dimensions are leading ones if none is empty. -/
lemma leading_eq_self {dims : List Nat} (h : 0 ∉ dims) : leading dims = dims := by
  rw [leading, List.takeWhile_eq_self_iff]
  intro dim hdim
  simpa using ne_of_mem_of_not_mem hdim h

/-- No product from the left is larger than that of the leading dimensions.

**Proof sketch.** Induction on the dimensions: up to the first empty one the products grow, and
from there on they are zero. -/
lemma prod_take_le (dims : List Nat) (k : Nat) : (dims.take k).prod ≤ (leading dims).prod := by
  have hpos (rest : List Nat) : 1 ≤ (leading rest).prod :=
    Nat.pos_of_ne_zero (List.prod_ne_zero (zero_not_mem_leading rest))
  induction dims generalizing k with
  | nil => simpa using hpos []
  | cons dim dims ih =>
    cases k with
    | zero => simpa using hpos (dim :: dims)
    | succ k =>
      rw [List.take_succ_cons, List.prod_cons]
      by_cases hdim : dim = 0
      · rw [hdim, Nat.zero_mul]
        exact Nat.zero_le _
      · rw [leading_cons_of_pos hdim, List.prod_cons]
        exact Nat.mul_le_mul_left dim (ih k)

/-- All products from the left fit a word exactly if that of the leading dimensions does. -/
lemma forall_prod_take_lt_iff {dims : List Nat} :
    (∀ k ≤ dims.length, (dims.take k).prod < wordLimit) ↔ (leading dims).prod < wordLimit := by
  constructor
  · intro h
    have hprefix := leading_prefix dims
    rw [List.prefix_iff_eq_take.mp hprefix]
    exact h _ hprefix.length_le
  · exact fun h k _ => Nat.lt_of_le_of_lt (prod_take_le dims k) h

/-! ## The checked count -/

/-- **Leading dimensions decide**: a shape is counted exactly if the product of its leading
dimensions fits a word, and the count is the product of all. -/
theorem elementCount?_eq_some_iff_leading {shape : Shape} {count : Nat} :
    shape.elementCount? = some count ↔
      (leading shape.dims).prod < wordLimit ∧ count = shape.dims.prod := by
  rw [elementCount?_eq_some_iff, forall_prod_take_lt_iff]

/-- Shapes with the same dimensions, none of which is empty, are counted alike. -/
theorem elementCount?_perm {shape other : Shape} (hzero : 0 ∉ shape.dims)
    (h : other.dims.Perm shape.dims) : other.elementCount? = shape.elementCount? := by
  have hzero' : 0 ∉ other.dims := fun hmem => hzero (h.mem_iff.mp hmem)
  apply Option.ext
  intro count
  rw [elementCount?_eq_some_iff_leading, elementCount?_eq_some_iff_leading,
    leading_eq_self hzero', leading_eq_self hzero, h.prod_eq]

/-- A shape that has no count in words: the product of the leading dimensions does not fit a word,
or the bytes of all elements do not, at a number of bytes for each. -/
def Overflows (shape : Shape) (elementSize : Nat) : Prop :=
  wordLimit ≤ (leading shape.dims).prod ∨ wordLimit ≤ shape.dims.prod * elementSize

/-- A shape without an empty dimension overflows exactly if its bytes do not fit a word. -/
lemma overflows_iff_of_not_mem {shape : Shape} (hzero : 0 ∉ shape.dims) {elementSize : Nat}
    (hsize : 0 < elementSize) :
    shape.Overflows elementSize ↔ wordLimit ≤ shape.dims.prod * elementSize := by
  rw [Overflows, leading_eq_self hzero, or_iff_right_iff_imp]
  exact fun h => Nat.le_trans h (Nat.le_mul_of_pos_right _ hsize)

/-- The checks of a size are those against overflow. -/
lemma overflows_iff_not_sizeCheck {index : Nat} {dims : List Nat} {elementSize : Nat} :
    Overflows ⟨dims⟩ elementSize ↔ ¬(sizeCheck index dims elementSize).holds := by
  rw [Overflows, sizeCheck, forall_prod_take_lt_iff, not_and_or, Nat.not_lt, Nat.not_lt]

/-- How the elements of a shape are counted. -/
structure CountsLeading (shape : Shape) : Prop where
  /-- The product of the leading dimensions decides, and the count is the product of all. -/
  count_iff : ∀ count, shape.elementCount? = some count ↔
    (leading shape.dims).prod < wordLimit ∧ count = shape.dims.prod
  /-- The count that is taken without a check is the same, and no step of it leaves the range of a
  word. -/
  unchecked : ∀ count, shape.elementCount? = some count → shape.elementCount = count ∧
    (wordProduct shape.dims).toNat = count ∧
    ∀ k, (wordProduct (shape.dims.take k)).toNat = (shape.dims.take k).prod
  /-- Without an empty dimension, the exact product decides. -/
  exact : 0 ∉ shape.dims → ∀ count, shape.elementCount? = some count ↔
    shape.dims.prod < wordLimit ∧ count = shape.dims.prod
  /-- Without an empty dimension, the order of the dimensions does not matter. -/
  ordered : 0 ∉ shape.dims → ∀ other : Shape, other.dims.Perm shape.dims →
    other.elementCount? = shape.elementCount?
  /-- The order never matters to the value of a count. -/
  agree : ∀ other : Shape, other.dims.Perm shape.dims → ∀ count count',
    shape.elementCount? = some count → other.elementCount? = some count' → count' = count
  /-- A variable of this shape is refused as too large exactly if the shape overflows. -/
  refused : ∀ index type fault, checkedCount index shape type = .error fault ↔
    shape.Overflows type.byteSize ∧ fault = .invalidVariable index (.shapeOverflow shape)
  /-- Without an empty dimension, a shape overflows exactly if its bytes do not fit a word. -/
  overflow : 0 ∉ shape.dims → ∀ type : ElementType, shape.Overflows type.byteSize ↔
    wordLimit ≤ shape.dims.prod * type.byteSize

/-- Every shape is counted by its leading dimensions. -/
theorem countsLeading (shape : Shape) : shape.CountsLeading where
  count_iff _ := elementCount?_eq_some_iff_leading
  unchecked count hcount := by
    obtain ⟨hlt, rfl⟩ := elementCount?_eq_some_iff_leading.mp hcount
    have hsteps (k : Nat) : (shape.dims.take k).prod < wordLimit :=
      Nat.lt_of_le_of_lt (prod_take_le _ _) hlt
    have hwhole : shape.dims.prod < wordLimit := by
      simpa using hsteps shape.dims.length
    exact ⟨product_eq_prod _, toNat_wordProduct_of_lt hwhole,
      fun k => toNat_wordProduct_of_lt (hsteps k)⟩
  exact hzero count := by
    rw [elementCount?_eq_some_iff_leading, leading_eq_self hzero]
  ordered hzero _ hperm := elementCount?_perm hzero hperm
  agree other hperm count count' hcount hcount' := by
    rw [(elementCount?_eq_some_iff_leading.mp hcount').2,
      (elementCount?_eq_some_iff_leading.mp hcount).2, hperm.prod_eq]
  refused index type fault := by
    rw [(checkedCount_follows index shape.dims type).eq_error_iff, firstFailing_singleton,
      ← overflows_iff_not_sizeCheck]
    exact and_congr_right fun _ => eq_comm
  overflow hzero type := overflows_iff_of_not_mem hzero (by cases type <;> decide)

end Shape

/-! ## Descriptors -/

namespace Network

/-- **Counting**: a shape is counted by its leading dimensions, and so is a shape in a descriptor. A
descriptor is refused for the size of a shape only if this is the shape of the first variable that
is out of order, and it overflows; and no variable of a network that was read has a shape that
does.

**Proof sketch.** The products from the left are at most that of the leading dimensions, which is
one of them (`Shape.forall_prod_take_lt_iff`). What is refused is read off the first check that is
violated (`justified_of_checks`), and what is accepted is countable. -/
theorem decode_counts_leading (shape : Shape) (bytes : Bytes) :
    shape.CountsLeading ∧
      (∀ index refused,
        Network.decode bytes = .error (.invalidVariable index (.shapeOverflow refused)) →
          ∃ reference, FirstBadVariable bytes index reference ∧
            refused = ⟨dims (Format.blocks bytes) (named (Format.blocks bytes) reference)⟩ ∧
            refused.Overflows
              (elementSize (typeCode (named (Format.blocks bytes) reference)))) ∧
      ∀ network, Network.decode bytes = .ok network → ∀ v ∈ network.variableTable,
        ¬v.shape.Overflows v.elementType.byteSize := by
  refine ⟨shape.countsLeading, fun index refused hdecode => ?_, fun network hdecode v hv => ?_⟩
  · have hfirst := (Network.decode_follows bytes).eq_error_iff.mp hdecode
    obtain ⟨reference, hbad, rfl, hover⟩ := justified_of_checks hfirst
    refine ⟨reference, hbad, rfl, hover.imp_left ?_⟩
    rintro ⟨k, -, hk⟩
    exact Nat.le_trans hk (Shape.prod_take_le _ k)
  · obtain ⟨entry, hfits, index, rfl⟩ := exists_entry hdecode hv
    obtain ⟨hproducts, hsize, -⟩ := Variable.countable_variableAt hfits _ _ _
    rw [Shape.Overflows, not_or, Nat.not_le, Nat.not_le]
    exact ⟨Shape.forall_prod_take_lt_iff.mp hproducts, hsize⟩

/-- A variable without elements, whose dimensions in front of the empty one do not fit a word. -/
def emptyLast : Draft where
  buffers := [0]
  variableTable :=
    [{ id := 0, dims := [65536, 65536, 65536, 65536, 0], backing := .buffer 0 }]
  functions := []
  inputs := []
  outputs := []

/-- Its shape is refused. -/
lemma decode_emptyLast : Network.decode emptyLast.encode =
    .error (.invalidVariable 0 (.shapeOverflow ⟨[65536, 65536, 65536, 65536, 0]⟩)) := by
  decide +kernel

/-- The variable that has its empty dimension last is refused for its leading dimensions, and a
variable whose shape shares its block with other lists is counted. -/
theorem decode_counts_leading_emptyLast :
    (∃ refused reference, Network.decode emptyLast.encode =
        .error (.invalidVariable 0 (.shapeOverflow refused)) ∧
      FirstBadVariable emptyLast.encode 0 reference ∧
      refused.CountsLeading ∧ refused.dims.prod = 0 ∧
      refused.Overflows
        (elementSize (typeCode (named (Format.blocks emptyLast.encode) reference)))) ∧
    ∃ network v, Network.decode sharedBlocks = .ok network ∧ v ∈ network.variableTable ∧
      ¬v.shape.Overflows v.elementType.byteSize := by
  constructor
  · obtain ⟨hcounts, hrefused, -⟩ :=
      decode_counts_leading ⟨[65536, 65536, 65536, 65536, 0]⟩ emptyLast.encode
    obtain ⟨reference, hfirst, -, hover⟩ := hrefused 0 _ decode_emptyLast
    exact ⟨_, reference, decode_emptyLast, hfirst, hcounts, by decide, hover⟩
  · have hdecode : Network.decode sharedBlocks = .ok (Format.network sharedBlocks) := by
      decide +kernel
    have hsome : (Format.network sharedBlocks).variableTable[0]?.isSome := by decide +kernel
    obtain ⟨v, hv⟩ := Option.isSome_iff_exists.mp hsome
    have hmem := List.mem_of_getElem? hv
    obtain ⟨-, -, haccepted⟩ := decode_counts_leading v.shape sharedBlocks
    exact ⟨_, v, hdecode, hmem, haccepted _ hdecode v hmem⟩

/-- The product of the dimensions alone does not decide whether a shape is counted, the order of the
dimensions matters, and a descriptor is refused for the size of a variable without elements. -/
theorem not_counts_product :
    ¬(∀ dims : List Nat, (∀ dim ∈ dims, dim < wordLimit) → ∀ count,
        Shape.elementCount? ⟨dims⟩ = some count ↔ dims.prod < wordLimit ∧ count = dims.prod) ∧
      ¬(∀ shape other : Shape, other.dims.Perm shape.dims →
        other.elementCount? = shape.elementCount?) ∧
      ¬(∀ bytes index refused,
        Network.decode bytes = .error (.invalidVariable index (.shapeOverflow refused)) →
          ∃ type : ElementType, wordLimit ≤ refused.dims.prod * type.byteSize) := by
  refine ⟨fun hcounts => ?_, fun hordered => ?_, fun hrefused => ?_⟩
  · have hcount := (hcounts [0x8000000000000000, 4, 0] (by decide) 0).mpr (by decide)
    exact absurd hcount (by decide)
  · have hsame := hordered ⟨[0x8000000000000000, 4, 0]⟩ ⟨[0, 0x8000000000000000, 4]⟩
      (by decide)
    exact absurd hsame (by decide)
  · obtain ⟨type, hover⟩ := hrefused _ _ _ decode_emptyLast
    have hempty : [65536, 65536, 65536, 65536, 0].prod = 0 := by decide
    rw [hempty, Nat.zero_mul] at hover
    exact absurd hover (by decide)

end Network

end Inference
