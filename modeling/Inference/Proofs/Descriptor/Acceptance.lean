import Inference.Proofs.Descriptor.Entries

set_option autoImplicit false
set_option relaxedAutoImplicit false

/-!
# What is a descriptor

A byte string is read successfully exactly when it satisfies the conditions of the format, and
then the tables are the ones at their documented places.

## Main results

* `BlockTable.firstBadOffset?_eq_none_iff` — when offsets cut a region into blocks.
* `Header.decode_eq_ok_iff` — when the header and the blocks are read.
* `Network.decode_eq_ok_iff` — the tables that are read are those of the format.
* `Network.decode_ok_iff_wellFormed` — acceptance is being well formed.
-/

namespace Inference

open Format

/-! ## Blocks -/

namespace BlockTable

/-- No offset is faulty when none exceeds the region and they never decrease. -/
theorem firstBadOffset?_eq_none_iff {size block previous : Nat} {offsets : List Nat} :
    firstBadOffset? size block previous offsets = none ↔
      (∀ offset ∈ offsets, offset ≤ size) ∧ (previous :: offsets).Pairwise (· ≤ ·) := by
  induction offsets generalizing block previous with
  | nil => simp [firstBadOffset?]
  | cons offset rest ih =>
    simp only [firstBadOffset?]
    by_cases hbad : size < offset ∨ offset < previous
    · simp only [hbad, if_true, List.forall_mem_cons, List.pairwise_cons, reduceCtorEq,
        false_iff]
      rintro ⟨⟨hsize, -⟩, ⟨hprevious, -⟩, -⟩
      omega
    · rw [if_neg hbad, ih]
      simp only [List.forall_mem_cons, List.pairwise_cons]
      have hnext : previous ≤ offset := by omega
      constructor
      · rintro ⟨hsize, hrest, hpairs⟩
        exact ⟨⟨by omega, hsize⟩, ⟨hnext, fun o ho => Nat.le_trans hnext (hrest o ho)⟩,
          hrest, hpairs⟩
      · rintro ⟨⟨-, hsize⟩, -, hrest, hpairs⟩
        exact ⟨hsize, hrest, hpairs⟩

/-- A block reaches from its offset to the next one, and the last block to the end. -/
lemma getElem?_spansOf (size : Nat) (offsets : List Nat) (i : Nat) :
    (spansOf size offsets)[i]? =
      offsets[i]?.map fun start => ⟨start, offsets[i + 1]?.getD size⟩ := by
  induction offsets generalizing i with
  | nil => simp [spansOf]
  | cons start rest ih =>
    cases rest with
    | nil => cases i <;> simp [spansOf]
    | cons next rest =>
      cases i with
      | zero => simp [spansOf]
      | succ i => simpa [spansOf] using ih i

/-- Offsets that are in order cut a region into the blocks between them. -/
lemma ofOffsets_eq_ok_iff {offsets : List Nat} {data : Bytes} {table : BlockTable} :
    ofOffsets offsets data = .ok table ↔
      ((∀ offset ∈ offsets, offset ≤ data.length) ∧ offsets.Pairwise (· ≤ ·)) ∧
        table = ⟨data, spansOf data.length offsets⟩ := by
  unfold ofOffsets
  have hnone := @firstBadOffset?_eq_none_iff data.length 0 0 offsets
  simp only [List.pairwise_cons, Nat.zero_le, implies_true, true_and] at hnone
  cases hbad : firstBadOffset? data.length 0 0 offsets with
  | none =>
    rw [hbad, eq_self_iff_true, true_iff] at hnone
    rw [and_iff_right hnone, Except.ok.injEq, @eq_comm _ table]
  | some found =>
    rw [hbad] at hnone
    simp [← hnone]

end BlockTable

/-! ## The header -/

section

variable {bytes : Bytes}

/-- The table of block offsets, word by word. -/
lemma words_offsetTable (hextent : dataStart bytes ≤ bytes.length) :
    (bytes.slice ⟨56, dataStart bytes⟩).words =
      (List.range (blockCount bytes)).map (blockOffset bytes) := by
  have hlength : (bytes.slice ⟨56, dataStart bytes⟩).length / 4 = blockCount bytes := by
    rw [Bytes.length_slice hextent]
    simp only [Span.length, dataStart]
    omega
  rw [Bytes.words_eq_map, hlength]
  apply List.map_congr_left
  intro block hblock
  rw [List.mem_range] at hblock
  rw [Bytes.word_slice bytes (by simp only [dataStart]; omega), blockOffset]

/-- The blocks between the offsets of the table are those of the format. -/
lemma spansOf_offsets (bytes : Bytes) :
    BlockTable.spansOf (dataSize bytes)
        ((List.range (blockCount bytes)).map (blockOffset bytes)) =
      (table bytes).spans := by
  apply List.ext_getElem?
  intro i
  rw [BlockTable.getElem?_spansOf]
  simp only [table, List.getElem?_map, blockEnd]
  by_cases hi : i < blockCount bytes
  · by_cases hnext : i + 1 < blockCount bytes <;> simp [hi, hnext]
  · simp [hi]

/-- Blocks end inside the data region. -/
lemma blockEnd_le (hsize : ∀ block < blockCount bytes, blockOffset bytes block ≤ dataSize bytes)
    (block : Nat) : blockEnd bytes block ≤ dataSize bytes := by
  unfold blockEnd
  split
  · next hnext => exact hsize _ hnext
  · exact Nat.le_refl _

/-- The blocks that are read hold what the format says. -/
lemma block?_table (hsize : ∀ block < blockCount bytes, blockOffset bytes block ≤ dataSize bytes) :
    (table bytes).block? = blocks bytes := by
  funext i
  simp only [BlockTable.block?, table, blocks, List.getElem?_map]
  by_cases hi : i < blockCount bytes
  · have hend := blockEnd_le hsize i
    have hinside : blockEnd bytes i ≤ dataStart bytes + dataSize bytes - dataStart bytes := by
      omega
    simp only [hi, if_true, List.getElem?_range hi, Option.map_some]
    rw [Bytes.slice_slice bytes _ _ ⟨blockOffset bytes i, blockEnd bytes i⟩ hinside]
  · simp [hi]

/-- The offsets never decrease from one block to a later one. -/
lemma pairwise_offsets :
    ((List.range (blockCount bytes)).map (blockOffset bytes)).Pairwise (· ≤ ·) ↔
      ∀ earlier later, earlier ≤ later → later < blockCount bytes →
        blockOffset bytes earlier ≤ blockOffset bytes later := by
  rw [List.pairwise_map, List.pairwise_iff_getElem]
  simp only [List.length_range, List.getElem_range]
  constructor
  · intro h earlier later hle hlater
    rcases Nat.lt_or_eq_of_le hle with hlt | rfl
    · exact h earlier later (by omega) hlater hlt
    · exact Nat.le_refl _
  · exact fun h earlier later _ hlater hlt => h earlier later (Nat.le_of_lt hlt) hlater

/-- The offset table cuts the data region into the blocks of the format when its offsets are in
order. -/
lemma ofOffsets_sections (hextent : dataStart bytes + dataSize bytes ≤ bytes.length)
    {blockTable : BlockTable} :
    BlockTable.ofOffsets (bytes.slice ⟨56, dataStart bytes⟩).words
        (bytes.slice ⟨dataStart bytes, dataStart bytes + dataSize bytes⟩) = .ok blockTable ↔
      ((∀ block < blockCount bytes, blockOffset bytes block ≤ dataSize bytes) ∧
        ∀ earlier later, earlier ≤ later → later < blockCount bytes →
          blockOffset bytes earlier ≤ blockOffset bytes later) ∧
      blockTable = table bytes := by
  have hlength :
      (bytes.slice ⟨dataStart bytes, dataStart bytes + dataSize bytes⟩).length =
        dataSize bytes := by
    rw [Bytes.length_slice hextent]
    exact Nat.add_sub_cancel_left _ _
  rw [BlockTable.ofOffsets_eq_ok_iff, words_offsetTable (by omega), hlength, spansOf_offsets,
    pairwise_offsets]
  simp only [List.forall_mem_map, List.mem_range]
  rfl

/-- The header and the blocks are read when the sections fit and the offsets are in order. -/
theorem Header.decode_eq_ok_iff {header : Header} {blockTable : BlockTable} :
    Header.decode bytes = .ok (header, blockTable) ↔
      Framed bytes ∧ header = .read bytes ∧ blockTable = table bytes := by
  have hstart : (read bytes).tableEnd = dataStart bytes := rfl
  have hend : (read bytes).dataEnd = dataStart bytes + Format.dataSize bytes := rfl
  have hversion : (read bytes).version = bytes.word 0 4 := rfl
  unfold Header.decode
  simp only [refusal_eq_ok_iff, map_eq_ok_iff, Prod.mk.injEq, Nat.not_lt, Decidable.not_not,
    hstart, hend, hversion, byteSize, descriptorVersion]
  constructor
  · rintro ⟨hheader, hversion, -, hextent, _, hblocks, rfl, rfl⟩
    obtain ⟨⟨hwithin, hordered⟩, htable⟩ := (ofOffsets_sections hextent).mp hblocks
    exact ⟨⟨hheader, hversion, hextent, hwithin, hordered⟩, rfl, htable⟩
  · rintro ⟨hframed, rfl, rfl⟩
    have hextent : dataStart bytes + Format.dataSize bytes ≤ bytes.length := hframed.extent
    exact ⟨hframed.header, hframed.version, by omega, hextent, _,
      (ofOffsets_sections hextent).mpr ⟨⟨hframed.offsets_within, hframed.offsets_ordered⟩, rfl⟩,
      rfl, rfl⟩

end

/-! ## Networks -/

/-- A byte string is read successfully when it is a descriptor, and then its tables are those at
the documented places. -/
theorem Network.decode_eq_ok_iff {bytes : Bytes} {network : Network} :
    Network.decode bytes = .ok network ↔
      WellFormed bytes ∧ network = Format.network bytes := by
  unfold Network.decode
  simp only [bind_eq_ok_iff, Prod.exists, Header.decode_eq_ok_iff, decodeBuffers_eq_ok_iff,
    BlockTable.signedList_eq_ok_iff, decodeIndices_eq_ok_iff, pure_eq_ok_iff,
    traverse_eq_ok_iff decodeVariable_eq_ok_iff, traverse_eq_ok_iff decodeFunction_eq_ok_iff]
  constructor
  · rintro ⟨header, blockTable, ⟨hframed, rfl, rfl⟩, buffers, ⟨hbuffers, rfl⟩, variableBlocks,
      ⟨hvariableList, rfl⟩, inputs, ⟨hinputs, rfl⟩, outputs, ⟨houtputs, rfl⟩, variableTable,
      ⟨hvariables, rfl⟩, functionBlocks, ⟨hfunctionList, rfl⟩, functions, ⟨hfunctions, rfl⟩,
      rfl⟩
    rw [block?_table hframed.offsets_within] at *
    simp only [length_items] at *
    exact ⟨⟨hframed, hbuffers, hvariableList, hfunctionList, hinputs, houtputs, hvariables,
      hfunctions⟩, rfl⟩
  · rintro ⟨hformed, rfl⟩
    have hcount :
        variableCount bytes = (items (Format.blocks bytes) (.read bytes 16)).length :=
      (length_items _ _).symm
    have hinputs := hformed.inputs
    have houtputs := hformed.outputs
    have hfunctions := hformed.functionEntries
    rw [hcount] at hinputs houtputs hfunctions
    refine ⟨_, _, ⟨hformed.toFramed, rfl, rfl⟩, ?_⟩
    rw [block?_table hformed.offsets_within]
    exact ⟨_, ⟨hformed.buffers, rfl⟩, _, ⟨hformed.variableList, rfl⟩, _, ⟨hinputs, rfl⟩, _,
      ⟨houtputs, rfl⟩, _, ⟨hformed.variableEntries, rfl⟩, _, ⟨hformed.functionList, rfl⟩, _,
      ⟨hfunctions, rfl⟩, rfl⟩

/-- **Acceptance**: a byte string is read successfully exactly when it is a descriptor, and
otherwise the answer is a fault.

**Proof sketch.** Reading succeeds when every step does, and each step succeeds exactly when the
part it reads satisfies its condition in the format (`Network.decode_eq_ok_iff`). -/
theorem Network.decode_ok_iff_wellFormed (bytes : Bytes) :
    ((∃ network, Network.decode bytes = .ok network) ↔ WellFormed bytes) ∧
      ((∃ fault, Network.decode bytes = .error fault) ↔ ¬WellFormed bytes) := by
  have haccept : (∃ network, Network.decode bytes = .ok network) ↔ WellFormed bytes := by
    simp only [Network.decode_eq_ok_iff, exists_and_left, exists_eq, and_true]
  refine ⟨haccept, ?_⟩
  rw [← haccept]
  cases Network.decode bytes with
  | error fault => simp
  | ok network => simp

end Inference
