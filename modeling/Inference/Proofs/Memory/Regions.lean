import Inference.Proofs.Words
import Inference.Memory.Arena

set_option autoImplicit false
set_option relaxedAutoImplicit false

/-!
# Regions of a store

The regions of an arena follow one another without overlap, so what the store holds is one byte
string for each region. This file shows that the two ways to reach a region agree, and that each of
them changes the regions it is meant to change and no others.

## Main definitions

* `Successive` — ranges that follow one another between two positions.
* `Arena.Tiled` — an arena whose regions do so inside its store.

## Main results

* `Arena.getElem?_split` — an entry of the table of all regions is the region.
* `Arena.split_write` — writing to a region changes that entry.
* `Arena.split_join` — joining a table lays its entries over the regions.
* `Arena.tiled_of_allocate` — an arena that was allocated has the regions that were asked for.
-/

namespace Inference

/-! ## Bytes at positions -/

namespace Bytes

/-- The bytes of a slice. -/
lemma getElem?_slice (bytes : Bytes) (span : Span) (k : Nat) :
    (bytes.slice span)[k]? = if k < span.length then bytes[span.start + k]? else none := by
  rw [slice, List.getElem?_take, List.getElem?_drop]

/-- The bytes of contents that were laid over others. -/
lemma getElem?_overwrite (old new : Bytes) (k : Nat) :
    (overwrite old new)[k]? = if k < new.length ∧ k < old.length then new[k]? else old[k]? := by
  rw [overwrite, List.getElem?_append, List.getElem?_take, List.getElem?_drop, List.length_take]
  rcases Nat.lt_or_ge k new.length with hnew | hnew
  · rcases Nat.lt_or_ge k old.length with hold | hold
    · rw [if_pos (by omega), if_pos hold, if_pos ⟨hnew, hold⟩]
    · rw [if_neg (by omega), if_neg (by omega), List.getElem?_eq_none (by omega),
        List.getElem?_eq_none hold]
  · rw [if_neg (by omega), if_neg (by omega)]
    rcases Nat.lt_or_ge new.length old.length with hlt | hge
    · congr 1
      omega
    · rw [List.getElem?_eq_none (by omega), List.getElem?_eq_none (by omega)]

/-- The bytes of contents that were laid over others from a position on. -/
lemma getElem?_overwriteAt (old : Bytes) (offset : Nat) (new : Bytes) (k : Nat) :
    (overwriteAt old offset new)[k]? =
      if offset ≤ k ∧ k < offset + new.length ∧ k < old.length then new[k - offset]?
      else old[k]? := by
  rw [overwriteAt, List.getElem?_append, List.length_take, List.getElem?_take,
    getElem?_overwrite, List.length_drop, List.getElem?_drop]
  rcases Nat.lt_or_ge k offset with hk | hk
  · rcases Nat.lt_or_ge k old.length with hold | hold
    · rw [if_pos (by omega), if_pos hk, if_neg (by omega)]
    · rw [if_neg (by omega), if_neg (by omega), if_neg (by omega),
        List.getElem?_eq_none (by omega), List.getElem?_eq_none hold]
  · rw [if_neg (by omega)]
    rcases Nat.lt_or_ge offset old.length with hlt | hge
    · rw [Nat.min_eq_left (by omega), show offset + (k - offset) = k by omega]
      congr 1
      exact propext (by omega)
    · rw [if_neg (by omega), if_neg (by omega), List.getElem?_eq_none (by omega),
        List.getElem?_eq_none (by omega)]

/-- Laying bytes over a store inside a range, as far as they fit, lays them over the range. -/
lemma slice_overwriteAt_self {store : Bytes} {span : Span} (hstop : span.stop ≤ store.length)
    (offset : Nat) (bytes : Bytes) :
    slice (overwriteAt store (span.start + offset) (bytes.take (span.length - offset))) span =
      overwriteAt (slice store span) offset bytes := by
  have hlength := length_slice hstop
  apply List.ext_getElem?
  intro k
  rw [getElem?_slice, getElem?_overwriteAt, getElem?_overwriteAt, hlength, getElem?_slice,
    List.length_take, List.getElem?_take]
  rw [Span.length] at hlength ⊢
  rcases Nat.lt_or_ge k (span.stop - span.start) with hk | hk
  · rw [if_pos hk, if_pos hk]
    by_cases hnew : offset ≤ k ∧ k < offset + bytes.length
    · rw [if_pos (by omega), if_pos (by omega), if_pos (by omega)]
      congr 1
      omega
    · rw [if_neg (by omega), if_neg (by omega)]
  · rw [if_neg (by omega), if_neg (by omega), if_neg (by omega)]

/-- Laying bytes over positions outside a range leaves the range. -/
lemma slice_overwriteAt_of_disjoint {store : Bytes} {span : Span} {start : Nat} {new : Bytes}
    (h : ∀ k, start ≤ k → k < start + new.length → k < span.start ∨ span.stop ≤ k) :
    slice (overwriteAt store start new) span = slice store span := by
  apply List.ext_getElem?
  intro k
  rw [getElem?_slice, getElem?_slice, getElem?_overwriteAt]
  split
  case isFalse => rfl
  case isTrue hk =>
    rw [Span.length] at hk
    rw [if_neg]
    rintro ⟨hlow, hhigh, -⟩
    have houtside := h _ hlow hhigh
    omega

/-- Laying nothing over byte strings leaves them. -/
@[simp]
lemma overwriteAll_nil (olds : List Bytes) : overwriteAll olds [] = olds := by
  cases olds <;> rfl

/-- Laying contents of the same lengths over byte strings replaces them. -/
lemma overwriteAll_of_map_length_eq {olds news : List Bytes}
    (h : news.map List.length = olds.map List.length) : overwriteAll olds news = news := by
  induction olds generalizing news with
  | nil =>
    obtain rfl : news = [] := by simpa using h
    rfl
  | cons old olds ih =>
    cases news with
    | nil => simp at h
    | cons new news =>
      simp only [List.map_cons, List.cons.injEq] at h
      rw [overwriteAll, overwrite_of_length_eq h.1, ih h.2]

end Bytes

/-! ## Successive ranges -/

/-- Ranges that follow one another between two positions. -/
def Successive (start stop : Nat) : List Span → Prop
  | [] => True
  | span :: spans =>
    (start ≤ span.start ∧ span.start ≤ span.stop ∧ span.stop ≤ stop) ∧
      Successive span.stop stop spans

section

variable {start stop : Nat} {spans : List Span}

/-- Each of the ranges lies between the positions. -/
lemma Successive.getElem?_le (h : Successive start stop spans) {i : Nat} {span : Span}
    (hi : spans[i]? = some span) :
    start ≤ span.start ∧ span.start ≤ span.stop ∧ span.stop ≤ stop := by
  induction spans generalizing start i with
  | nil => simp at hi
  | cons first rest ih =>
    obtain ⟨hfirst, hrest⟩ := h
    cases i with
    | zero =>
      obtain rfl : first = span := by simpa using hi
      exact hfirst
    | succ i =>
      have hspan := ih hrest (by simpa using hi)
      omega

/-- Ranges that follow one another also do so from an earlier position on. -/
lemma Successive.mono_start (h : Successive start stop spans) {earlier : Nat}
    (hle : earlier ≤ start) : Successive earlier stop spans := by
  cases spans with
  | nil => trivial
  | cons span spans =>
    obtain ⟨hspan, hrest⟩ := h
    exact ⟨by omega, hrest⟩

/-- An earlier range ends before a later one starts. -/
lemma Successive.stop_le_start (h : Successive start stop spans) {i j : Nat} {earlier later : Span}
    (hij : i < j) (hi : spans[i]? = some earlier) (hj : spans[j]? = some later) :
    earlier.stop ≤ later.start := by
  induction spans generalizing start i j with
  | nil => simp at hi
  | cons first rest ih =>
    obtain ⟨-, hrest⟩ := h
    obtain ⟨j, rfl⟩ : ∃ j', j = j' + 1 := ⟨j - 1, by omega⟩
    cases i with
    | zero =>
      obtain rfl : first = earlier := by simpa using hi
      exact (hrest.getElem?_le (by simpa using hj)).1
    | succ i =>
      rw [List.getElem?_cons_succ] at hi hj
      exact ih hrest (Nat.lt_of_succ_lt_succ hij) hi hj

end

namespace Arena

/-- The regions of an arena follow one another inside its store. -/
def Tiled (arena : Arena) : Prop :=
  Successive 0 arena.store.length arena.regions

/-! ## The table of all regions -/

/-- Splitting successive ranges off a store gives what the store holds there. -/
lemma splitFrom_eq_map {store : Bytes} {spans : List Span} {consumed : Nat}
    (h : Successive consumed store.length spans) :
    splitFrom consumed (store.drop consumed) spans = spans.map store.slice := by
  induction spans generalizing consumed with
  | nil => rfl
  | cons span spans ih =>
    obtain ⟨hspan, hrest⟩ := h
    rw [splitFrom, List.drop_drop, List.drop_drop, List.map_cons, ← ih hrest, Span.length,
      show consumed + (span.start - consumed) = span.start by omega,
      show span.start + (span.stop - span.start) = span.stop by omega]
    rfl

/-- Joining a table into a store does not change the length of the store. -/
lemma length_joinFrom {rest : Bytes} {spans : List Span} {consumed : Nat}
    (h : Successive consumed (consumed + rest.length) spans) (table : List Bytes) :
    (joinFrom consumed rest spans table).length = rest.length := by
  induction spans generalizing consumed rest table with
  | nil => rfl
  | cons span spans ih =>
    cases table with
    | nil => rfl
    | cons region table =>
      obtain ⟨hspan, hrest⟩ := h
      rw [joinFrom]
      set tail := rest.drop (span.start - consumed) with htail
      have hlength : (tail.drop span.length).length = consumed + rest.length - span.stop := by
        rw [List.length_drop, htail, List.length_drop, Span.length]
        omega
      have hlater : (joinFrom span.stop (tail.drop span.length) spans table).length =
          (tail.drop span.length).length := by
        apply ih
        rwa [hlength, show span.stop + (consumed + rest.length - span.stop) =
          consumed + rest.length by omega]
      rw [List.length_append, List.length_append, hlater, hlength, Bytes.length_overwrite,
        List.length_take, List.length_take, htail, List.length_drop, Span.length]
      omega

/-- A table that is joined into a store is laid over what is split off it. -/
lemma splitFrom_joinFrom {rest : Bytes} {spans : List Span} {consumed : Nat}
    (h : Successive consumed (consumed + rest.length) spans) (table : List Bytes) :
    splitFrom consumed (joinFrom consumed rest spans table) spans =
      Bytes.overwriteAll (splitFrom consumed rest spans) table := by
  induction spans generalizing consumed rest table with
  | nil => rfl
  | cons span spans ih =>
    cases table with
    | nil => rfl
    | cons region table =>
      obtain ⟨hspan, hrest⟩ := h
      rw [joinFrom, splitFrom, splitFrom, Bytes.overwriteAll]
      set tail := rest.drop (span.start - consumed) with htail
      have hfront : (rest.take (span.start - consumed)).length = span.start - consumed := by
        rw [List.length_take]
        omega
      have hregion : (Bytes.overwrite (tail.take span.length) region).length = span.length := by
        rw [Bytes.length_overwrite, List.length_take, htail, List.length_drop, Span.length]
        omega
      have hlength : (tail.drop span.length).length = consumed + rest.length - span.stop := by
        rw [List.length_drop, htail, List.length_drop, Span.length]
        omega
      rw [List.append_assoc, List.drop_left' hfront, List.take_left' hregion,
        List.drop_left' hregion, ih]
      rwa [hlength, show span.stop + (consumed + rest.length - span.stop) =
        consumed + rest.length by omega]

variable {arena : Arena}

/-- The table of all regions has what the store holds in each of them. -/
lemma split_eq_map (h : arena.Tiled) : arena.split = arena.regions.map arena.store.slice :=
  splitFrom_eq_map h

/-- An entry of the table of all regions is the region. -/
theorem getElem?_split (h : arena.Tiled) (i : Nat) : arena.split[i]? = arena.region? i := by
  rw [split_eq_map h, List.getElem?_map, region?]

/-- Joining a table keeps the layout. -/
lemma tiled_join (h : arena.Tiled) (table : List Bytes) : (arena.join table).Tiled := by
  have hlength : (joinFrom 0 arena.store arena.regions table).length = arena.store.length :=
    length_joinFrom (by rwa [Nat.zero_add]) table
  rw [Tiled, join, hlength]
  exact h

/-- A table that is joined into an arena is laid over its regions. -/
theorem split_join (h : arena.Tiled) (table : List Bytes) :
    (arena.join table).split = Bytes.overwriteAll arena.split table :=
  splitFrom_joinFrom (by rwa [Nat.zero_add]) table

/-! ## One region -/

/-- Writing keeps the layout. -/
@[simp]
lemma regions_write (arena : Arena) (index offset : Nat) (bytes : Bytes) :
    (arena.write index offset bytes).regions = arena.regions := by
  unfold write
  split <;> rfl

/-- Writing keeps the size of the store. -/
@[simp]
lemma length_store_write (arena : Arena) (index offset : Nat) (bytes : Bytes) :
    (arena.write index offset bytes).store.length = arena.store.length := by
  unfold write
  split
  · rfl
  · exact Bytes.length_overwriteAt _ _ _

/-- Writing keeps the layout inside the store. -/
lemma tiled_write (h : arena.Tiled) (index offset : Nat) (bytes : Bytes) :
    (arena.write index offset bytes).Tiled := by
  rw [Tiled, regions_write, length_store_write]
  exact h

/-- Writing to a region lays the bytes over it, and leaves the other regions. -/
theorem split_write (h : arena.Tiled) (index offset : Nat) (bytes : Bytes) :
    (arena.write index offset bytes).split =
      arena.split.modify index fun old => Bytes.overwriteAt old offset bytes := by
  apply List.ext_getElem?
  intro j
  rw [split_eq_map (tiled_write h index offset bytes), split_eq_map h, List.getElem?_modify,
    List.getElem?_map, List.getElem?_map, regions_write]
  cases hj : arena.regions[j]? with
  | none => rfl
  | some span =>
    cases hindex : arena.regions[index]? with
    | none =>
      have hne : index ≠ j := by
        rintro rfl
        simp [hj] at hindex
      simp [write, hindex, hne]
    | some written =>
      have hbounds := h.getElem?_le hj
      have hwritten := h.getElem?_le hindex
      simp only [write, hindex, Option.map_some]
      by_cases hij : index = j
      · subst hij
        obtain rfl : span = written := Option.some.inj (hj.symm.trans hindex)
        simp only [if_true]
        exact congrArg some (Bytes.slice_overwriteAt_self hbounds.2.2 offset bytes)
      · simp only [if_neg hij, Option.map_eq_map, Option.map_some, Option.some.injEq]
        apply Bytes.slice_overwriteAt_of_disjoint
        intro k hlow hhigh
        rw [List.length_take, Span.length] at hhigh
        -- the written range comes before or after the one that is looked at
        rcases Nat.lt_or_gt_of_ne hij with hlt | hgt
        · have hle := h.stop_le_start hlt hindex hj
          omega
        · have hle := h.stop_le_start hgt hj hindex
          omega

/-! ## Layout -/

/-- Aligning never goes back. -/
lemma le_alignUp (position : Nat) : position ≤ alignUp position := by
  rw [alignUp, alignment]
  omega

/-- Regions that were laid out follow one another and have the sizes that were asked for. -/
lemma successive_of_layout {region offset : Nat} {sizes : List Nat} {spans : List Span}
    {total : Nat} (h : layout region offset sizes = .ok (spans, total)) :
    offset ≤ total ∧ Successive offset total spans ∧ spans.map Span.length = sizes := by
  induction sizes generalizing region offset spans total with
  | nil =>
    cases h
    exact ⟨Nat.le_refl _, trivial, rfl⟩
  | cons size sizes ih =>
    rw [layout] at h
    split at h
    · cases h
    · cases hrest : layout (region + 1) (alignUp (offset + size)) sizes with
      | error fault => simp [hrest] at h
      | ok later =>
        obtain ⟨later, end'⟩ := later
        simp only [hrest, Except.ok.injEq, Prod.mk.injEq] at h
        obtain ⟨rfl, rfl⟩ := h
        obtain ⟨hle, hlater, hsizes⟩ := ih hrest
        have halign := le_alignUp (offset + size)
        have hend : offset + size ≤ end' := Nat.le_trans halign hle
        refine ⟨by omega, ⟨⟨Nat.le_refl _, Nat.le_add_right _ _, hend⟩, ?_⟩, ?_⟩
        · exact hlater.mono_start halign
        · rw [List.map_cons, hsizes, Span.length, Nat.add_sub_cancel_left]

/-- An arena that was allocated has the regions that were asked for. -/
theorem tiled_of_allocate {sizes : List Nat} {budget : Budget}
    (h : allocate sizes budget = .ok arena) :
    arena.Tiled ∧ arena.regions.map Span.length = sizes := by
  unfold allocate at h
  split at h
  · cases h
  · next regions total hlayout =>
    split at h
    · cases h
      obtain ⟨-, hsuccessive, hsizes⟩ := successive_of_layout hlayout
      refine ⟨?_, hsizes⟩
      rw [Tiled, Bytes.zeros, List.length_replicate]
      exact hsuccessive
    · cases h

end Arena

end Inference
