import Inference.Shape
import Mathlib.Algebra.BigOperators.Group.List.Lemmas
import Mathlib.Algebra.BigOperators.Ring.List
import Mathlib.Algebra.GroupWithZero.Nat
import Mathlib.Tactic.Common

set_option autoImplicit false
set_option relaxedAutoImplicit false

/-!
# Products of dimensions

Dimensions are multiplied in machine words, which wrap. The product in words is the exact one,
reduced to the range of a word, so it is exact as long as it stays below the word limit. This holds
for the dimensions of a shape in whatever way they are taken together, if the shape has fewer
elements than that and no empty dimension. With an empty dimension the others may leave the range.

## Main definitions

* `Shape.InRange` — a shape of which every product that a kernel forms is exact.

## Main results

* `Shape.toNat_wordProduct` — multiplication in machine words, against the exact product.
* `Shape.splitAt?_eq_some_iff`, `Shape.toNat_mul_of_splitAt?` — cutting a shape at an axis.
* `Shape.inRange_of_lt` — a shape without an empty dimension is in range if its element count is.
-/

namespace Inference.Shape

/-! ## Exact products and words -/

/-- The product of a list of dimensions is its product as a list of numbers. -/
lemma product_eq_prod (dims : List Nat) : product dims = dims.prod := by
  rw [product, List.prod_eq_foldl]

/-- A machine multiplies as numbers do, up to the range of its words. -/
lemma foldl_wordProduct (dims : List Nat) (start : Nat) :
    dims.foldl (fun product dim => product * UInt64.ofNat dim) (UInt64.ofNat start) =
      UInt64.ofNat (start * dims.prod) := by
  induction dims generalizing start with
  | nil => rw [List.foldl_nil, List.prod_nil, Nat.mul_one]
  | cons dim rest ih =>
    rw [List.foldl_cons, ← UInt64.ofNat_mul, ih, List.prod_cons, Nat.mul_assoc]

/-- The product in machine words is the word of the exact one. -/
lemma wordProduct_eq_ofNat (dims : List Nat) : wordProduct dims = UInt64.ofNat dims.prod := by
  have hfold := foldl_wordProduct dims 1
  rwa [Nat.one_mul] at hfold

/-- The product in machine words is the exact one, reduced to the range of a word. -/
theorem toNat_wordProduct (dims : List Nat) :
    (wordProduct dims).toNat = dims.prod % wordLimit := by
  rw [wordProduct_eq_ofNat, UInt64.toNat_ofNat']
  rfl

/-- A product that fits a word is the one that a machine computes. -/
lemma toNat_wordProduct_of_lt {dims : List Nat} (h : dims.prod < wordLimit) :
    (wordProduct dims).toNat = dims.prod := by
  rw [toNat_wordProduct, Nat.mod_eq_of_lt h]

/-- So is one that is multiplied step by step. -/
lemma toNat_wordProduct_eq_product {dims : List Nat} (h : product dims < wordLimit) :
    (wordProduct dims).toNat = product dims := by
  rw [product_eq_prod] at h ⊢
  exact toNat_wordProduct_of_lt h

/-- A product of two words is exact as long as it stays below the word limit. -/
lemma toNat_mul_of_lt {a b : UInt64} (h : a.toNat * b.toNat < wordLimit) :
    (a * b).toNat = a.toNat * b.toNat := by
  rw [UInt64.toNat_mul]
  exact Nat.mod_eq_of_lt h

/-- The product of all dimensions in words is that of both parts. -/
lemma wordProduct_append (front back : List Nat) :
    wordProduct (front ++ back) = wordProduct front * wordProduct back := by
  simp only [wordProduct_eq_ofNat, List.prod_append, UInt64.ofNat_mul]

/-! ## Cutting a shape -/

variable {shape : Shape} {axis : Nat} {outer inner : UInt64}

/-- A shape is cut at every axis up to its rank, into the products of both parts. -/
lemma splitAt?_eq_some_iff :
    shape.splitAt? axis = some (outer, inner) ↔
      axis ≤ shape.rank ∧ outer = wordProduct (shape.dims.take axis) ∧
        inner = wordProduct (shape.dims.drop axis) := by
  unfold splitAt?
  by_cases haxis : axis ≤ shape.rank
  · simp [haxis, eq_comm]
  · simp [haxis]

/-- The parts of a shape have all its elements, as far as these can be counted in words. -/
lemma toNat_mul_of_splitAt? (h : shape.splitAt? axis = some (outer, inner)) :
    (outer * inner).toNat = shape.elementCount % wordLimit := by
  obtain ⟨-, rfl, rfl⟩ := splitAt?_eq_some_iff.mp h
  rw [← wordProduct_append, List.take_append_drop, toNat_wordProduct, elementCount,
    product_eq_prod]

/-- A shape has a dimension along every axis below its rank. -/
lemma exists_dim?_iff : (∃ size, shape.dim? axis = some size) ↔ axis < shape.rank := by
  rw [← Option.isSome_iff_exists, dim?, isSome_getElem?, rank]

/-! ## Shapes in range -/

/-- A shape whose dimensions a machine multiplies exactly, in whatever way a kernel takes them
together. -/
structure InRange (shape : Shape) : Prop where
  /-- Dimensions in a row, multiplied from the left. -/
  products : ∀ part, part <:+: shape.dims →
    product part < wordLimit ∧ (wordProduct part).toNat = product part
  /-- The dimensions before and from an axis on. -/
  cut : ∀ axis ≤ shape.rank, ∃ outer inner, shape.splitAt? axis = some (outer, inner) ∧
    outer.toNat = product (shape.dims.take axis) ∧
    inner.toNat = product (shape.dims.drop axis) ∧
    outer.toNat * inner.toNat = shape.elementCount
  /-- The dimension along an axis, and those behind it. -/
  line : ∀ axis size, shape.dim? axis = some size →
    size * product (shape.dims.drop (axis + 1)) < wordLimit

/-- A shape in range has fewer elements than there are words. -/
lemma InRange.elementCount_lt (h : shape.InRange) : shape.elementCount < wordLimit :=
  (h.products shape.dims (List.infix_refl _)).1

/-- Both parts of a shape in range are exact, and have all its elements. -/
lemma InRange.toNat_of_splitAt? (h : shape.InRange)
    (hcut : shape.splitAt? axis = some (outer, inner)) :
    outer.toNat = product (shape.dims.take axis) ∧
      inner.toNat = product (shape.dims.drop axis) ∧
      outer.toNat * inner.toNat = shape.elementCount := by
  obtain ⟨found, other, hfound, hparts⟩ := h.cut axis (splitAt?_eq_some_iff.mp hcut).1
  obtain ⟨rfl, rfl⟩ := Prod.mk.inj (Option.some.inj (hfound.symm.trans hcut))
  exact hparts

/-- Dimensions in a row have no larger product than all of them, unless one is zero. -/
lemma product_infix_le {dims part : List Nat} (hzero : 0 ∉ dims) (h : part <:+: dims) :
    product part ≤ product dims := by
  rw [product_eq_prod, product_eq_prod]
  exact Nat.le_of_dvd (Nat.pos_of_ne_zero (List.prod_ne_zero hzero)) h.sublist.prod_dvd_prod

/-- A shape is in range if all products of dimensions in a row fit a word. -/
lemma inRange_of_forall_lt (h : ∀ part, part <:+: shape.dims → product part < wordLimit) :
    shape.InRange where
  products part hpart := ⟨h part hpart, toNat_wordProduct_eq_product (h part hpart)⟩
  cut axis haxis := by
    have houter := toNat_wordProduct_eq_product (h _ (List.take_prefix axis shape.dims).isInfix)
    have hinner := toNat_wordProduct_eq_product (h _ (List.drop_suffix axis shape.dims).isInfix)
    refine ⟨_, _, splitAt?_eq_some_iff.mpr ⟨haxis, rfl, rfl⟩, houter, hinner, ?_⟩
    rw [houter, hinner, elementCount, product_eq_prod, product_eq_prod, product_eq_prod,
      ← List.prod_append, List.take_append_drop]
  line axis size hsize := by
    obtain ⟨haxis, rfl⟩ := List.getElem?_eq_some_iff.mp hsize
    have hline : shape.dims[axis] * product (shape.dims.drop (axis + 1)) =
        product (shape.dims.drop axis) := by
      rw [List.drop_eq_getElem_cons haxis, product_eq_prod, product_eq_prod, List.prod_cons]
    rw [hline]
    exact h _ (List.drop_suffix _ _).isInfix

/-- A shape without an empty dimension is in range if its element count is. -/
theorem inRange_of_lt (hzero : 0 ∉ shape.dims) (hcount : shape.elementCount < wordLimit) :
    shape.InRange :=
  inRange_of_forall_lt fun _ hpart => Nat.lt_of_le_of_lt (product_infix_le hzero hpart) hcount

end Inference.Shape
