import Inference.Proofs.Descriptor.Consistency
import Inference.Proofs.Memory.Padding

set_option autoImplicit false
set_option relaxedAutoImplicit false

/-!
# Extents of descriptors

The words of a descriptor have 32 bits, and every list and every variable of a network that was
read fits what its words can say. So the variables of a network never take more than a machine can
allocate, and the data of a parameter is there in full.

## Main definitions

* `Network.Holds` — contents that a variable has before the first pass.

## Main results

* `Network.paddedTotal_le` — the regions of a network fit a machine.
* `Network.holds_initial` — the data that a descriptor holds for a variable is there in full.
-/

namespace Inference

/-! ## Words -/

namespace Bytes

/-- A number fits the bytes that it was read from. -/
lemma toNatLE_lt (bytes : Bytes) : toNatLE bytes < capacity bytes.length := by
  induction bytes with
  | nil => exact Nat.one_pos
  | cons byte rest ih =>
    have hbyte : byte.toNat < 256 := byte.toNat_lt
    rw [toNatLE, List.length_cons, capacity]
    omega

/-- More bytes can stand for more numbers. -/
lemma capacity_le_capacity {narrow wide : Nat} (h : narrow ≤ wide) :
    capacity narrow ≤ capacity wide := by
  induction h with
  | refl => exact Nat.le_refl _
  | step _ ih =>
    rw [capacity]
    omega

/-- A word fits its width. -/
lemma word_lt (bytes : Bytes) (offset width : Nat) : bytes.word offset width < capacity width := by
  rw [word_eq]
  exact Nat.lt_of_lt_of_le (toNatLE_lt _) (capacity_le_capacity (List.length_take_le _ _))

/-- A signed word is below half the range of words. -/
lemma signedWord_lt (bytes : Bytes) (offset : Nat) : bytes.signedWord offset < 0x80000000 := by
  unfold signedWord signed32
  rw [Int.bmod_def]
  split <;> omega

end Bytes

/-! ## Blocks and lists -/

namespace Format

/-- Blocks end within the range of a word. -/
lemma blockEnd_lt (bytes : Bytes) (block : Nat) : blockEnd bytes block < 0x100000000 := by
  unfold blockEnd
  split
  · exact Bytes.word_lt _ _ _
  · exact Bytes.word_lt _ _ _

/-- The length of a block fits a word. -/
lemma length_block_lt {bytes data : Bytes} {block : Nat} (h : blocks bytes block = some data) :
    data.length < 0x100000000 := by
  have hend := blockEnd_lt bytes block
  unfold blocks at h
  split at h
  · obtain rfl := Option.some.inj h
    simp only [Bytes.slice, Span.length, List.length_take]
    omega
  · cases h

/-- A list that can be followed takes bytes that can be counted in a word. -/
lemma count_lt_of_listFits {bytes : Bytes} {ref : ListRef} (h : ListFits (blocks bytes) ref) :
    ref.count < 0x40000000 := by
  obtain hempty | ⟨data, hnamed, hlength⟩ := h
  · omega
  · unfold named? at hnamed
    split at hnamed
    · cases hnamed
    · have hblock := length_block_lt hnamed
      omega

/-- An item of a list of indices or counts is below half the range of words. -/
lemma lt_of_mem_indices {blocks : BlockContents} {ref : ListRef} {index : Nat}
    (h : index ∈ indices blocks ref) : index < 0x80000000 := by
  obtain ⟨item, hitem, rfl⟩ := List.mem_map.mp h
  obtain ⟨k, -, rfl⟩ := List.mem_map.mp hitem
  have hword := Bytes.signedWord_lt (named blocks ref.block) (4 * k)
  omega

end Format

/-! ## Variables -/

namespace Network

open Format

variable {bytes : Bytes} {network : Network} {v : Variable}

/-- A variable of a network that was read is described by an entry that is in order. -/
lemma exists_entry (h : Network.decode bytes = .ok network) (hv : v ∈ network.variableTable) :
    ∃ entry, VariableFits (Format.blocks bytes) (Format.buffers bytes) entry ∧
      ∃ index, v = variableAt (Format.blocks bytes) network.inputs network.outputs index entry := by
  obtain ⟨hformed, rfl⟩ := Network.decode_eq_ok_iff.mp h
  obtain ⟨i, hi⟩ := List.getElem?_of_mem hv
  rw [network_variableTable, List.getElem?_mapIdx, Option.map_eq_some_iff] at hi
  obtain ⟨reference, hreference, rfl⟩ := hi
  obtain ⟨entry, hnamed, hfits⟩ :=
    hformed.variableEntries reference (List.mem_of_getElem? hreference)
  exact ⟨entry, hfits, i, by rw [named_eq hnamed]⟩

/-- The size of the variable of an entry that is in order. -/
lemma byteSize_variableAt {contents : BlockContents} {buffers inputs outputs : List Nat}
    {entry : Bytes} (h : VariableFits contents buffers entry) (index : Nat) :
    (variableAt contents inputs outputs index entry).byteSize =
      (dims contents entry).prod * elementSize (typeCode entry) := by
  obtain ⟨type, htype, hsize⟩ := ofCode?_eq_some h.type
  rw [variableAt_eq htype, Variable.byteSize, Shape.byteSize, Shape.elementCount,
    Shape.product_eq_prod, hsize]

/-- The size of a variable is the size of its data, or at most four bytes for each element of its
buffer. -/
theorem byteSize_lt (h : Network.decode bytes = .ok network) (hv : v ∈ network.variableTable) :
    v.byteSize < 0x200000000 := by
  obtain ⟨entry, hfits, index, rfl⟩ := exists_entry h hv
  rw [byteSize_variableAt hfits]
  by_cases hneg : entry.signedWord 16 < 0
  · obtain ⟨capacity, hbuffer, hle⟩ := hfits.data.buffer hneg
    have hcapacity := lt_of_mem_indices (List.mem_of_getElem? hbuffer)
    have hsize : elementSize (typeCode entry) ≤ 4 := by
      unfold elementSize
      split <;> decide
    calc (dims (Format.blocks bytes) entry).prod * elementSize (typeCode entry)
        ≤ capacity * 4 := Nat.mul_le_mul hle hsize
      _ < 0x200000000 := by omega
  · obtain ⟨data, hblock, hle⟩ := hfits.data.block (Int.not_lt.mp hneg)
    have hdata := length_block_lt hblock
    omega

/-- **Extent**: the regions of a network that was read never take more than a machine can allocate,
however many there are.

**Proof sketch.** There are fewer than 2 to the 30 variables, because the list of their entries
stands in a block, and none of them takes 2 to the 33 bytes (`Network.byteSize_lt`). -/
theorem paddedTotal_le (h : Network.decode bytes = .ok network) :
    Arena.paddedTotal (network.variableTable.map Variable.byteSize) ≤ Arena.allocationLimit := by
  have hcount : network.variableTable.length < 0x40000000 := by
    obtain ⟨hformed, rfl⟩ := Network.decode_eq_ok_iff.mp h
    rw [length_variableTable]
    exact count_lt_of_listFits hformed.variableList
  have hsizes : ∀ size ∈ network.variableTable.map Variable.byteSize,
      Arena.alignUp size ≤ 0x200000000 := by
    intro size hsize
    obtain ⟨v, hv, rfl⟩ := List.mem_map.mp hsize
    exact Arena.alignUp_le (by decide) (Nat.le_of_lt (byteSize_lt h hv))
  have htotal := Arena.paddedTotal_le_mul hsizes
  rw [List.length_map] at htotal
  calc _ ≤ network.variableTable.length * 0x200000000 := htotal
    _ ≤ 0x3fffffff * 0x200000000 := Nat.mul_le_mul_right _ (Nat.le_of_lt_succ hcount)
    _ ≤ Arena.allocationLimit := by decide

/-! ## Initial contents -/

/-- Contents that a variable has before the first pass: as many bytes as it takes, which are zeros
if it lives in a buffer, and the first bytes of its block if the descriptor holds data for it. -/
structure Holds (network : Network) (v : Variable) (contents : Bytes) : Prop where
  length_eq : contents.length = v.byteSize
  buffer : ∀ index, v.storage = .buffer index → contents = Bytes.zeros v.byteSize
  parameter : ∀ block, v.storage = .parameter block →
    ∃ data, network.blocks.block? block = some data ∧ contents <+: data

/-- The initial data of a variable, or zeros. -/
def initial (network : Network) (v : Variable) : Bytes :=
  (network.parameterData? v).getD (Bytes.zeros v.byteSize)

/-- The data of a parameter is there, with as many bytes as the parameter takes. -/
lemma exists_parameterData (h : Network.decode bytes = .ok network)
    (hv : v ∈ network.variableTable) {block : Nat} (hstorage : v.storage = .parameter block) :
    ∃ data, network.blocks.block? block = some data ∧ v.byteSize ≤ data.length := by
  obtain ⟨entry, hfits, index, rfl⟩ := exists_entry h hv
  obtain ⟨hformed, rfl⟩ := Network.decode_eq_ok_iff.mp h
  rw [network_blocks, block?_table hformed.offsets_within, byteSize_variableAt hfits]
  simp only [variableAt, storageOf] at hstorage
  split at hstorage
  · cases hstorage
  · next hpos =>
    rw [Storage.parameter.injEq] at hstorage
    rw [← hstorage]
    exact hfits.data.block (Int.not_lt.mp hpos)

/-- The initial contents are what a variable has before the first pass. -/
theorem holds_initial (h : Network.decode bytes = .ok network) (hv : v ∈ network.variableTable) :
    network.Holds v (network.initial v) := by
  cases hstorage : v.storage with
  | buffer index =>
    have hinitial : network.initial v = Bytes.zeros v.byteSize := by
      rw [initial, parameterData?, hstorage, Option.getD_none]
    refine ⟨?_, fun _ _ => hinitial, fun block hblock => ?_⟩
    · rw [hinitial, Bytes.zeros, List.length_replicate]
    · rw [hstorage] at hblock
      cases hblock
  | parameter block =>
    obtain ⟨data, hdata, hle⟩ := exists_parameterData h hv hstorage
    have hinitial : network.initial v = data.take v.byteSize := by
      rw [initial, parameterData?, hstorage]
      simp only [hdata, if_pos hle, Option.getD_some]
    refine ⟨?_, fun index hindex => ?_, fun other hother => ?_⟩
    · rw [hinitial, List.length_take, Nat.min_eq_left hle]
    · rw [hstorage] at hindex
      cases hindex
    · rw [hstorage] at hother
      cases hother
      exact ⟨data, hdata, hinitial ▸ List.take_prefix _ _⟩

end Network

end Inference
