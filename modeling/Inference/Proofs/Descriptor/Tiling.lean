import Inference.Proofs.Descriptor.Acceptance
import Mathlib.Order.Bounds.Defs

set_option autoImplicit false
set_option relaxedAutoImplicit false

/-!
# Blocks tile the data region

A table of offsets is refused for the first offset that exceeds the data region or is below the one
before it. If there is none, the blocks lie one behind the other: each reaches to where the next one
starts, and the last one to the end of the region. So the range of every block is inside of the
region, and reading blocks and lists never slices outside of it.

## Main definitions

* `BlockTable.Misplaced` — a block whose offset is refused.
* `BlockTable.contents` — all blocks, in order.
* `BlockTable.getSliced?`, `BlockTable.signedListSliced?` — blocks and lists with every slice
  checked.
* `BlockTable.Finds`, `BlockTable.Lists` — what a reference and a list give.
* `BlockTable.Tiles` — a table whose blocks tile the region.
* `BlockTable.Cuts` — what becomes of a table of offsets.

## Main results

* `BlockTable.exists_first_of_firstBadOffset?` — the offset that is reported is the first one that
  is refused.
* `BlockTable.flatten_slices` — the blocks one after another are the region from the first offset
  on.
* `BlockTable.getSliced?_eq`, `BlockTable.signedListSliced?_eq` — no slice leaves the region.
* `BlockTable.ofOffsets_cuts` — offsets cut a region as it is said here.
-/

namespace Inference

namespace BlockTable

/-! ## Offsets out of order -/

/-- A block whose offset exceeds the region, or is below the offset of the block before it. -/
def Misplaced (offsets : List Nat) (size block : Nat) : Prop :=
  ∃ offset, offsets[block]? = some offset ∧
    (size < offset ∨ ∃ earlier previous, block = earlier + 1 ∧
      offsets[earlier]? = some previous ∧ offset < previous)

/-- An offset is misplaced behind a bound if it exceeds the region, or is below its predecessor,
which for the first offset is the bound. -/
def MisplacedAfter (previous : Nat) (offsets : List Nat) (size block : Nat) : Prop :=
  ∃ offset bound, offsets[block]? = some offset ∧ (previous :: offsets)[block]? = some bound ∧
    (size < offset ∨ offset < bound)

/-- Nothing is below the bound zero. -/
lemma misplacedAfter_zero_iff {offsets : List Nat} {size block : Nat} :
    MisplacedAfter 0 offsets size block ↔ Misplaced offsets size block := by
  cases block with
  | zero => simp [MisplacedAfter, Misplaced]
  | succ earlier =>
    simp only [MisplacedAfter, Misplaced, List.getElem?_cons_succ, Nat.add_right_cancel_iff]
    constructor
    · rintro ⟨offset, bound, hoffset, hbound, hsize | hlt⟩
      · exact ⟨offset, hoffset, .inl hsize⟩
      · exact ⟨offset, hoffset, .inr ⟨earlier, bound, rfl, hbound, hlt⟩⟩
    · rintro ⟨offset, hoffset, hbad⟩
      obtain ⟨hinside, -⟩ := List.getElem?_eq_some_iff.mp hoffset
      have hearlier := List.getElem?_eq_getElem (Nat.lt_of_succ_lt hinside)
      refine ⟨offset, _, hoffset, hearlier, hbad.imp_right ?_⟩
      rintro ⟨_, previous, rfl, hprevious, hlt⟩
      rwa [Option.some.inj (hearlier.symm.trans hprevious)]

/-- The offset that is found is misplaced, and none before it is.

**Proof sketch.** Induction on the offsets. If the first one is in order, it is the bound for the
next, and the positions behind it move by one. -/
theorem exists_first_of_firstBadOffset? {size start previous block offset : Nat}
    {offsets : List Nat}
    (h : firstBadOffset? size start previous offsets = some (block, offset)) :
    ∃ i, block = start + i ∧ offsets[i]? = some offset ∧
      IsLeast {j | MisplacedAfter previous offsets size j} i := by
  induction offsets generalizing start previous with
  | nil => cases h
  | cons first rest ih =>
    rw [firstBadOffset?] at h
    split at h
    · next hbad =>
      obtain ⟨rfl, rfl⟩ := Prod.mk.inj (Option.some.inj h)
      exact ⟨0, rfl, rfl, ⟨first, previous, rfl, rfl, hbad⟩, fun _ _ => Nat.zero_le _⟩
    · next hgood =>
      obtain ⟨i, rfl, hoffset, ⟨found, bound, hfound, hbound, hbad⟩, hleast⟩ := ih h
      refine ⟨i + 1, by omega, hoffset, ⟨found, bound, hfound, hbound, hbad⟩, ?_⟩
      rintro j ⟨other, before, hother, hbefore, hmisplaced⟩
      cases j with
      | zero =>
        obtain rfl := Option.some.inj hother
        obtain rfl := Option.some.inj hbefore
        exact absurd hmisplaced hgood
      | succ j => exact Nat.succ_le_succ (hleast ⟨other, before, hother, hbefore, hmisplaced⟩)

/-- Offsets that are in order have no misplaced block. -/
lemma not_misplaced {offsets : List Nat} {size : Nat} (hwithin : ∀ offset ∈ offsets, offset ≤ size)
    (hordered : offsets.Pairwise (· ≤ ·)) (block : Nat) : ¬Misplaced offsets size block := by
  rintro ⟨offset, hoffset, hsize | ⟨earlier, previous, rfl, hprevious, hlt⟩⟩
  · exact Nat.not_le.mpr hsize (hwithin offset (List.mem_of_getElem? hoffset))
  · obtain ⟨hinside, rfl⟩ := List.getElem?_eq_some_iff.mp hoffset
    obtain ⟨hearlier, rfl⟩ := List.getElem?_eq_some_iff.mp hprevious
    have hle := List.pairwise_iff_getElem.mp hordered earlier (earlier + 1) hearlier hinside
      (Nat.lt_succ_self earlier)
    exact Nat.not_le.mpr hlt hle

/-! ## The ranges of the blocks -/

/-- All blocks, in order. -/
def contents (table : BlockTable) : List Bytes :=
  table.spans.map table.data.slice

/-- There are as many ranges as offsets. -/
lemma length_spansOf (size : Nat) (offsets : List Nat) :
    (spansOf size offsets).length = offsets.length := by
  induction offsets using spansOf.induct with
  | case1 => rfl
  | case2 start => rfl
  | case3 start next rest ih =>
    rw [spansOf, List.length_cons, ih]
    rfl

/-- Every range between offsets in order is inside of the region. -/
lemma within_of_mem_spansOf {offsets : List Nat} {size : Nat}
    (hwithin : ∀ offset ∈ offsets, offset ≤ size) (hordered : offsets.Pairwise (· ≤ ·))
    {span : Span} (h : span ∈ spansOf size offsets) :
    span.start ≤ span.stop ∧ span.stop ≤ size := by
  induction offsets using spansOf.induct with
  | case1 => cases h
  | case2 start =>
    rw [spansOf, List.mem_singleton] at h
    subst h
    exact ⟨hwithin start List.mem_cons_self, Nat.le_refl size⟩
  | case3 start next rest ih =>
    rw [List.forall_mem_cons] at hwithin
    rw [List.pairwise_cons] at hordered
    rw [spansOf, List.mem_cons] at h
    obtain rfl | hrest := h
    · exact ⟨hordered.1 next List.mem_cons_self, hwithin.2 next List.mem_cons_self⟩
    · exact ih hwithin.2 hordered.2 hrest

/-- **The blocks one after another** are the region from the first offset on. -/
theorem flatten_slices {offsets : List Nat} {data : Bytes}
    (hordered : offsets.Pairwise (· ≤ ·)) :
    ((spansOf data.length offsets).map data.slice).flatten =
      data.drop (offsets.head?.getD data.length) := by
  induction offsets using spansOf.induct with
  | case1 => simp [spansOf]
  | case2 start =>
    simp [spansOf, Bytes.slice, Span.length]
  | case3 start next rest ih =>
    rw [List.pairwise_cons] at hordered
    have hnext : start + (next - start) = next :=
      Nat.add_sub_cancel' (hordered.1 next List.mem_cons_self)
    rw [spansOf, List.map_cons, List.flatten_cons, ih hordered.2]
    simp only [List.head?_cons, Option.getD_some, Bytes.slice, Span.length]
    calc (data.drop start).take (next - start) ++ data.drop next
        = (data.drop start).take (next - start) ++ (data.drop start).drop (next - start) := by
          rw [List.drop_drop, hnext]
      _ = data.drop start := List.take_append_drop _ _

/-! ## Reading with checked slices -/

section

variable {table : BlockTable}

/-- A block by the signed number that refers to it, with its slice checked: absent where the range
of the block leaves the region. -/
def getSliced? (table : BlockTable) (index : Int) (what : Referent) :
    Option (Except DescriptorFault (Nat × Bytes)) :=
  if index < 0 then some (.error (.indexOutOfRange what index table.count))
  else
    match table.spans[index.toNat]? with
    | none => some (.error (.indexOutOfRange what index table.count))
    | some span => (table.data.slice? span).map fun bytes => .ok (index.toNat, bytes)

/-- The signed words of a list, with every slice checked. -/
def signedListSliced? (table : BlockTable) (ref : ListRef) (what : Referent) :
    Option (Except DescriptorFault (List Int)) :=
  if ref.count = 0 then some (.ok [])
  else
    (table.getSliced? ref.block what).map fun found => do
      let (block, bytes) ← found
      match bytes.slice? ⟨0, 4 * ref.count⟩ with
      | none => .error (.blockTooShort block what (4 * ref.count) bytes.length)
      | some words => .ok (Bytes.signedWords words)

/-- No slice of a block leaves the region if the ranges of all blocks are inside of it. -/
theorem getSliced?_eq
    (h : ∀ span ∈ table.spans, span.start ≤ span.stop ∧ span.stop ≤ table.data.length)
    (index : Int) (what : Referent) :
    table.getSliced? index what = some (table.get index what) := by
  unfold getSliced? get block?
  split
  · rfl
  · cases hspan : table.spans[index.toNat]? with
    | none => rfl
    | some span =>
      simp only [Bytes.slice?, if_pos (h span (List.mem_of_getElem? hspan)), Option.map_some]

/-- Nor does one of a list. -/
theorem signedListSliced?_eq
    (h : ∀ span ∈ table.spans, span.start ≤ span.stop ∧ span.stop ≤ table.data.length)
    (ref : ListRef) (what : Referent) :
    table.signedListSliced? ref what = some (table.signedList ref what) := by
  unfold signedListSliced? signedList
  split
  · rfl
  · rw [getSliced?_eq h, Option.map_some]
    cases table.get ref.block what with
    | error fault => rfl
    | ok found =>
      obtain ⟨block, bytes⟩ := found
      simp only [bind, Except.bind, Bytes.slice?, Nat.zero_le, true_and]
      by_cases hshort : bytes.length < 4 * ref.count
      · rw [if_neg (Nat.not_le.mpr hshort), if_pos hshort]
      · rw [if_pos (Nat.not_lt.mp hshort), if_neg hshort]
        rfl

/-! ## What references and lists give -/

/-- What a reference gives among some blocks: the block with its number, or the fault that there is
none. -/
inductive Finds (blocks : List Bytes) (index : Int) (what : Referent) :
    Except DescriptorFault (Nat × Bytes) → Prop where
  | missing (h : index < 0 ∨ (blocks.length : Int) ≤ index) :
      Finds blocks index what (.error (.indexOutOfRange what index blocks.length))
  | found {bytes : Bytes} (hindex : 0 ≤ index) (hblock : blocks[index.toNat]? = some bytes) :
      Finds blocks index what (.ok (index.toNat, bytes))

/-- What a list gives among some blocks: as many little-endian words as it counts, or the fault
that there is no block for it or not enough in the block. -/
inductive Lists (blocks : List Bytes) (ref : ListRef) (what : Referent) :
    Except DescriptorFault (List Int) → Prop where
  | empty (h : ref.count = 0) : Lists blocks ref what (.ok [])
  | missing (hcount : ref.count ≠ 0) (h : ref.block < 0 ∨ (blocks.length : Int) ≤ ref.block) :
      Lists blocks ref what (.error (.indexOutOfRange what ref.block blocks.length))
  | short {bytes : Bytes} (hcount : ref.count ≠ 0) (hindex : 0 ≤ ref.block)
      (hblock : blocks[ref.block.toNat]? = some bytes) (h : bytes.length < 4 * ref.count) :
      Lists blocks ref what
        (.error (.blockTooShort ref.block.toNat what (4 * ref.count) bytes.length))
  | words {bytes : Bytes} {words : List Int} (hcount : ref.count ≠ 0) (hindex : 0 ≤ ref.block)
      (hblock : blocks[ref.block.toNat]? = some bytes) (h : 4 * ref.count ≤ bytes.length)
      (hlength : words.length = ref.count)
      (hwords : ∀ k < ref.count, words[k]? = some (bytes.signedWord (4 * k))) :
      Lists blocks ref what (.ok words)

/-- A reference gives what it is said to give. -/
lemma finds_get (index : Int) (what : Referent) :
    Finds table.contents index what (table.get index what) := by
  have hlength : table.contents.length = table.count := List.length_map _
  unfold get
  split
  · next hneg =>
    rw [← hlength]
    exact .missing (.inl hneg)
  · next hindex =>
    have hblock : table.block? index.toNat = table.contents[index.toNat]? :=
      List.getElem?_map.symm
    rw [hblock]
    split
    · next hnone =>
      rw [← hlength]
      have houtside := List.getElem?_eq_none_iff.mp hnone
      exact .missing (.inr (by omega))
    · next bytes hbytes => exact .found (Int.not_lt.mp hindex) hbytes

/-- A list gives what it is said to give. -/
lemma lists_signedList (ref : ListRef) (what : Referent) :
    Lists table.contents ref what (table.signedList ref what) := by
  unfold signedList
  split
  · next hempty => exact .empty hempty
  · next hcount =>
    have hfinds := table.finds_get ref.block what
    generalize table.get ref.block what = found at hfinds
    cases hfinds with
    | missing h => exact .missing hcount h
    | @found bytes hindex hblock =>
      dsimp only
      split
      · next hshort => exact .short hcount hindex hblock hshort
      · next hlong =>
        have hfits := Nat.not_lt.mp hlong
        rw [Bytes.signedWords_take bytes hfits]
        refine .words hcount hindex hblock hfits (by simp) fun k hk => ?_
        simp [hk]

end

/-! ## Cutting a region -/

/-- A table of blocks that lie one behind the other in a region, from the first offset to the
end. -/
structure Tiles (table : BlockTable) (offsets : List Nat) (data : Bytes) : Prop where
  data_eq : table.data = data
  count_eq : table.count = offsets.length
  start_eq : ∀ (i : Nat) (span : Span), table.spans[i]? = some span →
    offsets[i]? = some span.start
  within : ∀ span ∈ table.spans, span.start ≤ span.stop ∧ span.stop ≤ data.length
  meets : ∀ (i : Nat) (span next : Span), table.spans[i]? = some span →
    table.spans[i + 1]? = some next → span.stop = next.start
  reaches_end : ∀ span, table.spans.getLast? = some span → span.stop = data.length
  /-- A region without blocks has nothing from the first offset on. -/
  flatten_eq : table.contents.flatten = data.drop (offsets.head?.getD data.length)
  finds : ∀ index what, Finds table.contents index what (table.get index what)
  lists : ∀ ref what, Lists table.contents ref what (table.signedList ref what)
  get_sliced : ∀ index what, table.getSliced? index what = some (table.get index what)
  list_sliced : ∀ ref what, table.signedListSliced? ref what = some (table.signedList ref what)

/-- What becomes of a table of offsets: the fault of the first misplaced block, or, if there is
none, blocks that tile the region. -/
inductive Cuts (offsets : List Nat) (data : Bytes) : Except DescriptorFault BlockTable → Prop where
  | refused {block offset : Nat} (hfirst : IsLeast {b | Misplaced offsets data.length b} block)
      (hoffset : offsets[block]? = some offset) :
      Cuts offsets data (.error (.badBlockOffset block offset data.length))
  | cut {table : BlockTable} (hnone : ∀ block, ¬Misplaced offsets data.length block)
      (htiles : table.Tiles offsets data) : Cuts offsets data (.ok table)

/-- Offsets in order give blocks that tile the region. -/
lemma tiles_spansOf {offsets : List Nat} {data : Bytes}
    (hwithin : ∀ offset ∈ offsets, offset ≤ data.length) (hordered : offsets.Pairwise (· ≤ ·)) :
    Tiles ⟨data, spansOf data.length offsets⟩ offsets data where
  data_eq := rfl
  count_eq := length_spansOf _ _
  start_eq := by
    intro i span hspan
    rw [getElem?_spansOf, Option.map_eq_some_iff] at hspan
    obtain ⟨start, hstart, rfl⟩ := hspan
    exact hstart
  within := fun _ => within_of_mem_spansOf hwithin hordered
  meets := by
    intro i span next hspan hnext
    rw [getElem?_spansOf, Option.map_eq_some_iff] at hspan hnext
    obtain ⟨start, -, rfl⟩ := hspan
    obtain ⟨stop, hstop, rfl⟩ := hnext
    rw [hstop, Option.getD_some]
  reaches_end := by
    intro span hspan
    rw [List.getLast?_eq_getElem?, length_spansOf, getElem?_spansOf,
      Option.map_eq_some_iff] at hspan
    obtain ⟨start, hstart, rfl⟩ := hspan
    obtain ⟨hlt, -⟩ := List.getElem?_eq_some_iff.mp hstart
    rw [List.getElem?_eq_none (by omega), Option.getD_none]
  flatten_eq := flatten_slices hordered
  finds := finds_get
  lists := lists_signedList
  get_sliced := getSliced?_eq fun _ => within_of_mem_spansOf hwithin hordered
  list_sliced := signedListSliced?_eq fun _ => within_of_mem_spansOf hwithin hordered

/-- **Cutting a region**: the offsets of a table, one little-endian word after another, are refused
for the first one that exceeds the region or is below its predecessor. If there is none, the blocks
tile the region from the first offset to its end, and references and lists are read inside of it.

**Proof sketch.** What is reported is the first misplaced block (`exists_first_of_firstBadOffset?`);
if nothing is, the offsets are in order (`firstBadOffset?_eq_none_iff`), and the ranges between them
tile the region (`tiles_spansOf`). -/
theorem ofOffsets_cuts (offsetTable data : Bytes) :
    Cuts ((List.range (offsetTable.length / 4)).map fun k => offsetTable.word (4 * k) 4) data
      (ofOffsets offsetTable.words data) := by
  rw [← Bytes.words_eq_map]
  generalize offsetTable.words = offsets
  have hnone := @firstBadOffset?_eq_none_iff data.length 0 0 offsets
  unfold ofOffsets
  cases hbad : firstBadOffset? data.length 0 0 offsets with
  | some found =>
    obtain ⟨i, hblock, hoffset, hfirst⟩ := exists_first_of_firstBadOffset? hbad
    simp only [misplacedAfter_zero_iff] at hfirst
    rw [Nat.zero_add] at hblock
    rw [← hblock] at hfirst hoffset
    exact .refused hfirst hoffset
  | none =>
    obtain ⟨hwithin, hordered⟩ := hnone.mp hbad
    have hpairs := (List.pairwise_cons.mp hordered).2
    exact .cut (not_misplaced hwithin hpairs) (tiles_spansOf hwithin hpairs)

end BlockTable

end Inference
