import Inference.Proofs.Memory.Padding
import Mathlib.Data.Nat.Find

set_option autoImplicit false
set_option relaxedAutoImplicit false

/-!
# What is allocated

Regions are laid out with machine words: the end of a region, and that end rounded up, are only
positions as long as they stay below the word limit. The limit is a multiple of the alignment, so
testing the end of a region with the rounding added is exact. This file compares allocation with the
sums of padded sizes as natural numbers, which no word limits: which of the three answers is given,
with which figures, and where the regions are.

## Main definitions

* `Arena.paddedEnd` — where a region ends, rounded up.
* `Arena.Overflows` — the first region whose padded end is no word.
* `Arena.LaidOut` — an arena with zeroed regions at the padded ends.

## Main results

* `Arena.layout_eq_error` — laying out stops at the first region that overflows.
* `Arena.regions_of_layout` — every region starts where the one before ends, rounded up.
* `Arena.allocate_exact` — the three answers of allocation.
-/

namespace Inference

namespace Arena

/-! ## Padded ends -/

/-- Where a region ends, rounded up: the padded sizes of the regions up to it. -/
def paddedEnd (sizes : List Nat) (region : Nat) : Nat :=
  paddedTotal (sizes.take (region + 1))

/-- The first region adds its padded size to the ends of the others. -/
lemma paddedTotal_cons (size : Nat) (sizes : List Nat) :
    paddedTotal (size :: sizes) = alignUp size + paddedTotal sizes := rfl

/-- The end of the first region is its padded size. -/
lemma paddedEnd_zero (size : Nat) (sizes : List Nat) :
    paddedEnd (size :: sizes) 0 = alignUp size := rfl

/-- The end of a later region is counted from the end of the first. -/
lemma paddedEnd_succ (size : Nat) (sizes : List Nat) (region : Nat) :
    paddedEnd (size :: sizes) (region + 1) = alignUp size + paddedEnd sizes region := rfl

/-- What is padded is a multiple of the alignment. -/
lemma alignment_dvd_paddedTotal (sizes : List Nat) : alignment ∣ paddedTotal sizes := by
  induction sizes with
  | nil => exact Nat.dvd_zero _
  | cons size sizes ih => exact Nat.dvd_add (alignment_dvd_alignUp size) ih

/-- No region ends behind the store. -/
lemma paddedEnd_le (sizes : List Nat) (region : Nat) :
    paddedEnd sizes region ≤ paddedTotal sizes := by
  have hsplit : paddedTotal sizes =
      paddedEnd sizes region + paddedTotal (sizes.drop (region + 1)) := by
    rw [paddedEnd, paddedTotal, paddedTotal, paddedTotal, ← total_append, ← List.map_append,
      List.take_append_drop]
  omega

/-- The ends of all regions are words when the size of the store is one. -/
lemma forall_paddedEnd_lt_iff {sizes : List Nat} :
    (∀ region < sizes.length, paddedEnd sizes region < wordLimit) ↔
      paddedTotal sizes < wordLimit := by
  constructor
  · intro h
    cases hlength : sizes.length with
    | zero =>
      rw [List.length_eq_zero_iff] at hlength
      subst hlength
      decide
    | succ last =>
      have hlast := h last (by omega)
      rwa [paddedEnd, ← hlength, List.take_length] at hlast
  · exact fun h region _ => Nat.lt_of_le_of_lt (paddedEnd_le sizes region) h

/-- Behind an aligned position, testing the end of a region with the rounding added is testing the
padded end: the limit is a multiple of the alignment. -/
lemma wordLimit_le_iff {offset : Nat} (hoffset : alignment ∣ offset) (size : Nat) :
    wordLimit ≤ offset + size + (alignment - 1) ↔ wordLimit ≤ offset + alignUp size := by
  rw [alignment] at hoffset ⊢
  rw [alignUp, alignment, wordLimit]
  omega

/-! ## Laying out -/

/-- The first region whose padded end is no word, with its size. -/
structure Overflows (sizes : List Nat) (region size : Nat) : Prop where
  size_eq : sizes[region]? = some size
  limit_le : wordLimit ≤ paddedEnd sizes region
  earlier_lt : ∀ earlier < region, paddedEnd sizes earlier < wordLimit

/-- **Overflow**: laying out from an aligned position on stops at the first region whose padded end,
counted from there, is no word.

**Proof sketch.** Induction on the sizes. If the first region overflows, it is the one; otherwise
laying out goes on from its padded end, from which the ends of the others are counted. -/
theorem layout_eq_error (first : Nat) {offset region size : Nat} {sizes : List Nat}
    (hoffset : alignment ∣ offset) (hsize : sizes[region]? = some size)
    (hlimit : wordLimit ≤ offset + paddedEnd sizes region)
    (hearlier : ∀ earlier < region, offset + paddedEnd sizes earlier < wordLimit) :
    layout first offset sizes = .error (.layoutOverflow (first + region) size) := by
  induction sizes generalizing first offset region with
  | nil => simp at hsize
  | cons head sizes ih =>
    rw [layout]
    cases region with
    | zero =>
      obtain rfl : head = size := by simpa using hsize
      rw [paddedEnd_zero] at hlimit
      rw [if_pos ((wordLimit_le_iff hoffset head).mpr hlimit), Nat.add_zero]
    | succ region =>
      have hhead : ¬wordLimit ≤ offset + head + (alignment - 1) := by
        rw [wordLimit_le_iff hoffset, Nat.not_le]
        exact hearlier 0 (Nat.succ_pos _)
      have hrest : layout (first + 1) (alignUp (offset + head)) sizes =
          .error (.layoutOverflow (first + 1 + region) size) := by
        refine ih (first + 1) (alignment_dvd_alignUp _) (by simpa using hsize) ?_ ?_
        · rwa [alignUp_add hoffset, Nat.add_assoc, ← paddedEnd_succ]
        · intro earlier hlt
          have hlater := hearlier (earlier + 1) (Nat.succ_lt_succ hlt)
          rwa [paddedEnd_succ, ← Nat.add_assoc, ← alignUp_add hoffset] at hlater
      rw [if_neg hhead, hrest, Nat.add_assoc, Nat.add_comm 1 region]

/-- Regions that are laid out from an aligned position on start where the ones before them end,
rounded up, and the store ends where the last one does. -/
theorem regions_of_layout {first offset total : Nat} {sizes : List Nat} {spans : List Span}
    (hoffset : alignment ∣ offset) (h : layout first offset sizes = .ok (spans, total)) :
    total = offset + paddedTotal sizes ∧
      ∀ i, spans[i]? = sizes[i]?.map fun size =>
        (⟨offset + paddedTotal (sizes.take i), offset + paddedTotal (sizes.take i) + size⟩ :
          Span) := by
  induction sizes generalizing first offset spans with
  | nil =>
    cases h
    exact ⟨rfl, fun _ => rfl⟩
  | cons head sizes ih =>
    rw [layout] at h
    split at h
    · cases h
    · split at h
      · cases h
      · next later total hlater =>
        cases h
        obtain ⟨htotal, hspans⟩ := ih (alignment_dvd_alignUp _) hlater
        rw [alignUp_add hoffset] at htotal hspans
        refine ⟨by rw [htotal, paddedTotal_cons, Nat.add_assoc], fun i => ?_⟩
        cases i with
        | zero => rfl
        | succ i =>
          rw [List.getElem?_cons_succ, List.getElem?_cons_succ, hspans i, List.take_succ_cons,
            paddedTotal_cons, Nat.add_assoc offset]

end Arena

/-- Of ranges that follow one another, an earlier one ends before a later one starts. -/
lemma Successive.pairwise {start stop : Nat} {spans : List Span}
    (h : Successive start stop spans) :
    spans.Pairwise fun earlier later => earlier.stop ≤ later.start := by
  rw [List.pairwise_iff_getElem]
  intro i j hi hj hlt
  exact h.stop_le_start hlt (List.getElem?_eq_getElem hi) (List.getElem?_eq_getElem hj)

namespace Arena

/-! ## Allocating -/

/-- An arena for regions of the given sizes: each starts at the padded end of the one before, at a
multiple of the alignment, and is zeroed; they lie inside the store without overlap, and the store
takes the padded sizes, which the budget allows. -/
structure LaidOut (arena : Arena) (sizes : List Nat) (budget : Budget) : Prop where
  count_eq : arena.count = sizes.length
  totalBytes_eq : arena.totalBytes = paddedTotal sizes
  totalBytes_le : arena.totalBytes ≤ budget.bytes
  regions_eq : ∀ i, arena.regions[i]? = sizes[i]?.map fun size =>
    (⟨paddedTotal (sizes.take i), paddedTotal (sizes.take i) + size⟩ : Span)
  aligned : ∀ span ∈ arena.regions, alignment ∣ span.start
  inside : ∀ span ∈ arena.regions, span.start ≤ span.stop ∧ span.stop ≤ arena.totalBytes
  disjoint : arena.regions.Pairwise fun earlier later => earlier.stop ≤ later.start
  zeroed : ∀ i, arena.region? i = sizes[i]?.map Bytes.zeros

variable {sizes : List Nat} {budget : Budget}

/-- An arena that was allocated is laid out. -/
theorem laidOut_of_allocate {arena : Arena} (h : allocate sizes budget = .ok arena) :
    arena.LaidOut sizes budget := by
  obtain ⟨htiled, hsizes⟩ := tiled_of_allocate h
  have hsplit := split_allocate h
  unfold allocate at h
  split at h
  · cases h
  · next regions total hlayout =>
    split at h
    · next hfits =>
      cases h
      obtain ⟨rfl, hregions⟩ := regions_of_layout (Nat.dvd_zero _) hlayout
      simp only [Nat.zero_add] at *
      have hstore : (Bytes.zeros (paddedTotal sizes)).length = paddedTotal sizes :=
        List.length_replicate
      simp only [Budget.fits, Bool.and_eq_true, decide_eq_true_eq] at hfits
      refine
        { count_eq := by rw [count, ← hsizes, List.length_map]
          totalBytes_eq := hstore
          totalBytes_le := by rw [totalBytes, hstore]; exact hfits.1
          regions_eq := hregions
          aligned := ?_
          inside := ?_
          disjoint := htiled.pairwise
          zeroed := fun i => by rw [← getElem?_split htiled, hsplit, List.getElem?_map] }
      · intro span hspan
        obtain ⟨i, hi⟩ := List.getElem?_of_mem hspan
        rw [hregions, Option.map_eq_some_iff] at hi
        obtain ⟨size, -, rfl⟩ := hi
        exact alignment_dvd_paddedTotal _
      · intro span hspan
        obtain ⟨i, hi⟩ := List.getElem?_of_mem hspan
        exact (htiled.getElem?_le hi).2
    · cases h

/-- A region that overflows is what allocation is refused for. -/
lemma allocate_of_overflows {region size : Nat} (h : Overflows sizes region size) :
    allocate sizes budget = .error (.layoutOverflow region size) := by
  have hlayout := layout_eq_error 0 (Nat.dvd_zero _) h.size_eq
    (by rw [Nat.zero_add]; exact h.limit_le)
    (by simpa only [Nat.zero_add] using h.earlier_lt)
  rw [Nat.zero_add] at hlayout
  rw [allocate, hlayout]

/-- If the store is too large for a word, there is a first region that overflows. -/
lemma exists_overflows (h : wordLimit ≤ paddedTotal sizes) :
    ∃ region size, Overflows sizes region size := by
  have hexists : ∃ region, region < sizes.length ∧ wordLimit ≤ paddedEnd sizes region := by
    have hnot := mt forall_paddedEnd_lt_iff.mp (Nat.not_lt.mpr h)
    simpa only [not_forall, Nat.not_lt, exists_prop] using hnot
  obtain ⟨hlength, hlimit⟩ := Nat.find_spec hexists
  refine ⟨Nat.find hexists, _, List.getElem?_eq_getElem hlength, hlimit, fun earlier hlt => ?_⟩
  have hfirst := Nat.find_min hexists hlt
  exact Nat.not_le.mp fun hle => hfirst ⟨Nat.lt_trans hlt hlength, hle⟩

/-- One of the three answers is given, under its condition. -/
lemma allocate_cases (sizes : List Nat) (budget : Budget) :
    (∃ region size, Overflows sizes region size ∧
      allocate sizes budget = .error (.layoutOverflow region size)) ∨
    (paddedTotal sizes < wordLimit ∧
      (budget.bytes < paddedTotal sizes ∨ allocationLimit < paddedTotal sizes) ∧
      allocate sizes budget = .error (.outOfMemory (paddedTotal sizes) budget.bytes)) ∨
    (paddedTotal sizes < wordLimit ∧
      (paddedTotal sizes ≤ budget.bytes ∧ paddedTotal sizes ≤ allocationLimit) ∧
      ∃ arena, allocate sizes budget = .ok arena) := by
  rcases Nat.lt_or_ge (paddedTotal sizes) wordLimit with hword | hlimit
  · by_cases hfits : paddedTotal sizes ≤ budget.bytes ∧ paddedTotal sizes ≤ allocationLimit
    · exact .inr (.inr ⟨hword, hfits, allocate_eq_ok hfits.2 hfits.1⟩)
    · have hexceeds : budget.bytes < paddedTotal sizes ∨ allocationLimit < paddedTotal sizes := by
        omega
      exact .inr (.inl ⟨hword, hexceeds, allocate_eq_outOfMemory hword hexceeds⟩)
  · obtain ⟨region, size, hoverflows⟩ := exists_overflows hlimit
    exact .inl ⟨region, size, hoverflows, allocate_of_overflows hoverflows⟩

/-- **Allocation**: the answer is an overflow at a region, with its size, exactly if this is the
first one whose padded end is no word; otherwise the answer is that memory is exceeded, by the
padded sizes against the budget, exactly if these exceed the budget or what can be allocated;
otherwise there is an arena, which is laid out.

**Proof sketch.** The padded ends are all words or there is a first one that is not
(`exists_overflows`), and then laying out stops there (`layout_eq_error`). If they are words, the
regions are laid out (`layout_eq_ok`), and the store is compared with the budget and the limit. So
each condition has its answer, and one of them holds (`allocate_cases`). -/
theorem allocate_exact (sizes : List Nat) (budget : Budget) :
    (∀ region size, allocate sizes budget = .error (.layoutOverflow region size) ↔
      Overflows sizes region size) ∧
    (∀ requested ceiling, allocate sizes budget = .error (.outOfMemory requested ceiling) ↔
      (requested = paddedTotal sizes ∧ ceiling = budget.bytes) ∧
        (∀ region < sizes.length, paddedEnd sizes region < wordLimit) ∧
          (budget.bytes < paddedTotal sizes ∨ allocationLimit < paddedTotal sizes)) ∧
    ((∃ arena, allocate sizes budget = .ok arena) ↔
      (∀ region < sizes.length, paddedEnd sizes region < wordLimit) ∧
        paddedTotal sizes ≤ budget.bytes ∧ paddedTotal sizes ≤ allocationLimit) ∧
    ∀ arena, allocate sizes budget = .ok arena → arena.LaidOut sizes budget := by
  simp only [forall_paddedEnd_lt_iff]
  have hcases := allocate_cases sizes budget
  refine ⟨fun region size => ?_, fun requested ceiling => ?_, ?_, fun arena => laidOut_of_allocate⟩
  · constructor
    · intro h
      simp only [h, Except.error.injEq, ArenaFault.layoutOverflow.injEq, reduceCtorEq, and_false,
        exists_false, or_false] at hcases
      obtain ⟨_, _, hoverflows, rfl, rfl⟩ := hcases
      exact hoverflows
    · exact allocate_of_overflows
  · constructor
    · intro h
      simp only [h, Except.error.injEq, ArenaFault.outOfMemory.injEq, reduceCtorEq, and_false,
        exists_false, or_false, false_or] at hcases
      obtain ⟨hword, hexceeds, hfigures⟩ := hcases
      exact ⟨hfigures, hword, hexceeds⟩
    · rintro ⟨⟨rfl, rfl⟩, hword, hexceeds⟩
      exact allocate_eq_outOfMemory hword hexceeds
  · constructor
    · rintro ⟨arena, h⟩
      simp only [h, reduceCtorEq, and_false, exists_false, false_or] at hcases
      exact ⟨hcases.1, hcases.2.1⟩
    · exact fun ⟨_, hbudget, hlimit⟩ => allocate_eq_ok hlimit hbudget

/-- Regions of three, no and seventeen bytes are laid out. An end in the last bytes below the limit
is no overflow, though the store is too large for any budget; one more byte is an overflow. -/
theorem allocate_exact_limits :
    (∃ arena, allocate [3, 0, 17] ⟨48⟩ = .ok arena ∧ arena.LaidOut [3, 0, 17] ⟨48⟩) ∧
      allocate [0xfffffffffffffff0] ⟨0xffffffffffffffff⟩ =
        .error (.outOfMemory 0xfffffffffffffff0 0xffffffffffffffff) ∧
      allocate [16, 0xffffffffffffffe1] ⟨48⟩ =
        .error (.layoutOverflow 1 0xffffffffffffffe1) := by
  refine ⟨?_, ?_, ?_⟩
  · obtain ⟨arena, harena⟩ : ∃ arena, allocate [3, 0, 17] ⟨48⟩ = .ok arena :=
      (allocate_exact [3, 0, 17] ⟨48⟩).2.2.1.mpr (by decide)
    exact ⟨arena, harena, (allocate_exact [3, 0, 17] ⟨48⟩).2.2.2 arena harena⟩
  · exact ((allocate_exact _ _).2.1 _ _).mpr (by decide)
  · exact ((allocate_exact _ _).1 _ _).mpr ⟨by decide, by decide, by decide⟩

end Arena

end Inference
