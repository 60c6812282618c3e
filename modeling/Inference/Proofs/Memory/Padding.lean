import Inference.Proofs.Memory.Regions
import Inference.Total

set_option autoImplicit false
set_option relaxedAutoImplicit false

/-!
# Padded layouts

Every region starts at a multiple of the alignment, so a region takes its size rounded up, and the
store takes the sum of these. This file shows when a store can be laid out, how large it is, and
that it starts out zeroed.

## Main definitions

* `Arena.paddedTotal` — the sum of the sizes, each rounded up to the alignment.

## Main results

* `Arena.layout_eq_ok` — regions are laid out if the store they need stays below the word limit.
* `Arena.allocate_eq_ok`, `Arena.allocate_eq_outOfMemory` — a store is allocated if it fits the
  budget and the machine, and refused if not.
* `Arena.split_allocate` — all its regions are zeroed.
-/

namespace Inference

namespace Arena

/-! ## Sizes -/

/-- Bytes of a store for regions of the given sizes: each is rounded up to the alignment. -/
def paddedTotal (sizes : List Nat) : Nat :=
  total (sizes.map alignUp)

/-- What is aligned is a multiple of the alignment. -/
lemma alignment_dvd_alignUp (position : Nat) : alignment ∣ alignUp position :=
  Nat.dvd_mul_left _ _

/-- A multiple of the alignment that bounds a position also bounds what is aligned. -/
lemma alignUp_le {position bound : Nat} (hbound : alignment ∣ bound) (h : position ≤ bound) :
    alignUp position ≤ bound := by
  rw [alignment] at hbound
  rw [alignUp, alignment]
  omega

/-- Behind an aligned position, what is aligned is the distance. -/
lemma alignUp_add {offset : Nat} (h : alignment ∣ offset) (size : Nat) :
    alignUp (offset + size) = offset + alignUp size := by
  rw [alignment] at h
  rw [alignUp, alignUp, alignment]
  omega

/-- If every size stays below a bound when it is rounded up, so does their share of a store. -/
lemma paddedTotal_le_mul {sizes : List Nat} {bound : Nat}
    (h : ∀ size ∈ sizes, alignUp size ≤ bound) : paddedTotal sizes ≤ sizes.length * bound := by
  induction sizes with
  | nil => exact Nat.zero_le _
  | cons size sizes ih =>
    rw [List.forall_mem_cons] at h
    have hrest := ih h.2
    calc paddedTotal (size :: sizes)
        = alignUp size + paddedTotal sizes := rfl
      _ ≤ bound + sizes.length * bound := Nat.add_le_add h.1 hrest
      _ = (size :: sizes).length * bound := by rw [List.length_cons, Nat.succ_mul, Nat.add_comm]

/-! ## Laying out -/

/-- Regions are laid out from an aligned position on if the store they need stays below the word
limit. -/
theorem layout_eq_ok (region : Nat) {offset : Nat} {sizes : List Nat} (hoffset : alignment ∣ offset)
    (h : offset + paddedTotal sizes < wordLimit) :
    ∃ spans, layout region offset sizes = .ok (spans, offset + paddedTotal sizes) := by
  induction sizes generalizing region offset with
  | nil => exact ⟨[], rfl⟩
  | cons size sizes ih =>
    have hpadded : paddedTotal (size :: sizes) = alignUp size + paddedTotal sizes := rfl
    rw [hpadded, ← Nat.add_assoc, ← alignUp_add hoffset] at h ⊢
    have haligned := alignment_dvd_alignUp (offset + size)
    obtain ⟨spans, hspans⟩ := ih (region + 1) haligned h
    -- the end is aligned and below a limit that is aligned, so rounding up does not reach it
    have hroom : ¬wordLimit ≤ offset + size + (alignment - 1) := by
      have hle := le_alignUp (offset + size)
      rw [alignment] at haligned ⊢
      rw [wordLimit] at h ⊢
      omega
    exact ⟨⟨offset, offset + size⟩ :: spans, by simp only [layout, if_neg hroom, hspans]⟩

/-- A store that fits the budget and the machine is allocated. -/
theorem allocate_eq_ok {sizes : List Nat} {budget : Budget}
    (hlimit : paddedTotal sizes ≤ allocationLimit) (hfits : paddedTotal sizes ≤ budget.bytes) :
    ∃ arena, allocate sizes budget = .ok arena := by
  have hword : 0 + paddedTotal sizes < wordLimit := by
    rw [allocationLimit] at hlimit
    rw [wordLimit]
    omega
  obtain ⟨spans, hspans⟩ := layout_eq_ok 0 (Nat.dvd_zero _) hword
  rw [Nat.zero_add] at hspans
  exact ⟨⟨Bytes.zeros (paddedTotal sizes), spans, budget⟩, by
    simp only [allocate, hspans, Budget.fits, hfits, hlimit, decide_true, Bool.and_self, if_true]⟩

/-- A store that exceeds the budget or what can be allocated is refused with its size. -/
theorem allocate_eq_outOfMemory {sizes : List Nat} {budget : Budget}
    (hword : paddedTotal sizes < wordLimit)
    (hexceeds : budget.bytes < paddedTotal sizes ∨ allocationLimit < paddedTotal sizes) :
    allocate sizes budget = .error (.outOfMemory (paddedTotal sizes) budget.bytes) := by
  rw [← Nat.zero_add (paddedTotal sizes)] at hword
  obtain ⟨spans, hspans⟩ := layout_eq_ok 0 (Nat.dvd_zero _) hword
  rw [Nat.zero_add] at hspans
  have hrefused : ¬(paddedTotal sizes ≤ budget.bytes ∧ paddedTotal sizes ≤ allocationLimit) := by
    omega
  simp only [allocate, hspans, Budget.fits, Bool.and_eq_true, decide_eq_true_eq, if_neg hrefused]

/-- A store that exceeds the budget, though it fits the machine, is refused with its size. -/
theorem allocate_eq_error {sizes : List Nat} {budget : Budget}
    (hlimit : paddedTotal sizes ≤ allocationLimit) (hexceeds : budget.bytes < paddedTotal sizes) :
    allocate sizes budget = .error (.outOfMemory (paddedTotal sizes) budget.bytes) := by
  have hword : paddedTotal sizes < wordLimit := by
    rw [allocationLimit] at hlimit
    rw [wordLimit]
    omega
  exact allocate_eq_outOfMemory hword (.inl hexceeds)

/-! ## Contents -/

/-- A slice of zeros is zeros. -/
lemma slice_zeros {length : Nat} {span : Span} (h : span.stop ≤ length) :
    Bytes.slice (Bytes.zeros length) span = Bytes.zeros span.length := by
  rw [Bytes.slice, Bytes.zeros, List.drop_replicate, List.take_replicate, Bytes.zeros, Span.length]
  congr 1
  omega

/-- The regions of an arena that was allocated have the sizes that were asked for, and are
zeroed. -/
theorem split_allocate {sizes : List Nat} {budget : Budget} {arena : Arena}
    (h : allocate sizes budget = .ok arena) : arena.split = sizes.map Bytes.zeros := by
  obtain ⟨htiled, hsizes⟩ := tiled_of_allocate h
  have hstore : arena.store = Bytes.zeros arena.store.length := by
    unfold allocate at h
    split at h
    · cases h
    · split at h
      · cases h
        exact (congrArg Bytes.zeros List.length_replicate).symm
      · cases h
  rw [split_eq_map htiled, ← hsizes, List.map_map]
  apply List.map_congr_left
  intro span hspan
  obtain ⟨i, hi⟩ := List.getElem?_of_mem hspan
  rw [hstore, slice_zeros (htiled.getElem?_le hi).2.2, Function.comp_apply]

end Arena

end Inference
