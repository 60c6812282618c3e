import Inference.Proofs.Descriptor.Extent

set_option autoImplicit false
set_option relaxedAutoImplicit false

/-!
# Fields of what was read

The tables of a network are used without further checks: regions are taken by index, data is
copied by size, and sizes are multiplied in machine words. This file says what a table can be
trusted for after a successful reading, in terms of the bytes it was read from. Fields are stated
with the checked accessors, so that a field is where it is documented and is there in full. Blocks
may be shared: nothing here asks an entry, a list or the data of a parameter to have a block of its
own.

## Main definitions

* `Format.ListAt` — a list that stands at an offset, item by item.
* `Variable.ReadFrom`, `FunctionEntry.ReadFrom` — an entry of a table and the block that it was
  read from.
* `Variable.Countable` — a variable whose size a machine counts exactly without checks.
* `Network.Places`, `Network.Assigns` — where the data of a variable is, and the part it plays.
* `Network.ReadFrom` — a network and the bytes it was read from.

## Main results

* `Network.readFrom_of_decode` — the tables of a network that was read can be trusted.
-/

namespace Inference

open Format

/-! ## Fields that are there -/

namespace Bytes

variable {bytes : Bytes}

/-- A range inside the bytes is there. -/
lemma slice?_eq_some {span : Span} (horder : span.start ≤ span.stop)
    (hinside : span.stop ≤ bytes.length) : bytes.slice? span = some (bytes.slice span) :=
  if_pos ⟨horder, hinside⟩

/-- A word inside the bytes is there. -/
lemma wordAt?_eq_some {offset width : Nat} (h : offset + width ≤ bytes.length) :
    bytes.wordAt? offset width = some (bytes.word offset width) := by
  rw [wordAt?, slice?_eq_some (Nat.le_add_right _ _) h, Option.map_some, word]

/-- A signed word inside the bytes is there. -/
lemma signedAt?_eq_some {offset : Nat} (h : offset + 4 ≤ bytes.length) :
    bytes.signedAt? offset = some (bytes.signedWord offset) := by
  rw [signedAt?, wordAt?_eq_some h, Option.map_some, signedWord]

/-- Two bytes that were read as a word make up a code of 16 bits. -/
lemma toNat_ofNat16_word (bytes : Bytes) (offset : Nat) :
    (UInt16.ofNat (bytes.word offset 2)).toNat = bytes.word offset 2 :=
  UInt16.toNat_ofNat_of_lt' (word_lt bytes offset 2)

/-- Four bytes that were read as a word make up a number of 32 bits. -/
lemma toNat_ofNat32_word (bytes : Bytes) (offset : Nat) :
    (UInt32.ofNat (bytes.word offset 4)).toNat = bytes.word offset 4 := by
  have hlt := word_lt bytes offset 4
  rw [capacity_four] at hlt
  exact UInt32.toNat_ofNat_of_lt' hlt

end Bytes

namespace Format

/-- A list that stands at an offset: a count, and the number of a block that holds the items from
its start on, as signed words. An empty list names no block. -/
structure ListAt (blocks : BlockContents) (bytes : Bytes) (offset : Nat) (items : List Int) :
    Prop where
  count : bytes.wordAt? offset 4 = some items.length
  item : ∀ (k : Nat) (item : Int), items[k]? = some item →
    ∃ reference data, bytes.signedAt? (offset + 4) = some reference ∧
      named? blocks reference = some data ∧ data.signedAt? (4 * k) = some item

/-- Indices and counts as the signed words that stand for them. -/
def asWords (values : List Nat) : List Int :=
  values.map Int.ofNat

section

variable {blocks : BlockContents} {bytes : Bytes} {offset : Nat}

/-- A list that can be followed stands at its offset. -/
theorem listAt_items (hinside : offset + 8 ≤ bytes.length)
    (hfits : ListFits blocks (.read bytes offset)) :
    ListAt blocks bytes offset (items blocks (.read bytes offset)) := by
  refine ⟨?_, fun k item hk => ?_⟩
  · rw [Bytes.wordAt?_eq_some (by omega), length_items, ListRef.read]
  · obtain ⟨hlt, rfl⟩ := List.getElem?_eq_some_iff.mp hk
    rw [length_items] at hlt
    obtain hempty | ⟨data, hnamed, hlength⟩ := hfits
    · omega
    · refine ⟨_, data, ?_, hnamed, ?_⟩
      · rw [Bytes.signedAt?_eq_some (by omega), ListRef.read]
      · rw [getElem_items, named_eq hnamed]
        exact Bytes.signedAt?_eq_some (by omega)

/-- The words for items that are not negative are the items. -/
lemma asWords_indices {ref : ListRef} (h : ∀ item ∈ items blocks ref, 0 ≤ item) :
    asWords (indices blocks ref) = items blocks ref := by
  rw [asWords, indices, List.map_map]
  exact (List.map_congr_left fun item hitem => Int.toNat_of_nonneg (h item hitem)).trans
    (List.map_id _)

/-- A list of counts stands at its offset. -/
lemma listAt_counts (hinside : offset + 8 ≤ bytes.length)
    (hfits : CountsFit blocks (.read bytes offset)) :
    ListAt blocks bytes offset (asWords (indices blocks (.read bytes offset))) := by
  rw [asWords_indices hfits.2]
  exact listAt_items hinside hfits.1

/-- A list of indices stands at its offset. -/
lemma listAt_indices {count : Nat} (hinside : offset + 8 ≤ bytes.length)
    (hfits : IndicesFit blocks (.read bytes offset) count) :
    ListAt blocks bytes offset (asWords (indices blocks (.read bytes offset))) :=
  listAt_counts hinside ⟨hfits.1, fun item hitem => (hfits.2 item hitem).1⟩

/-- The number of a block leads to the block with this number, all of which is inside the bytes. -/
lemma blocks_eq_some_iff (hframed : Framed bytes) {block : Nat} {contents : Bytes} :
    Format.blocks bytes block = some contents ↔
      block < blockCount bytes ∧
        bytes.slice? ⟨dataStart bytes + blockOffset bytes block,
          dataStart bytes + blockEnd bytes block⟩ = some contents := by
  by_cases hblock : block < blockCount bytes
  · have hextent := hframed.extent
    have horder : blockOffset bytes block ≤ blockEnd bytes block := by
      unfold blockEnd
      split
      · next hnext => exact hframed.offsets_ordered block _ (Nat.le_succ _) hnext
      · exact hframed.offsets_within block hblock
    have hend := blockEnd_le hframed.offsets_within block
    have hinside : dataStart bytes + blockEnd bytes block ≤ bytes.length := by
      rw [dataStart]
      omega
    rw [Format.blocks, if_pos hblock,
      Bytes.slice?_eq_some (Nat.add_le_add_left horder _) hinside]
    simp only [hblock, true_and]
  · simp only [Format.blocks, hblock, if_false, false_and, reduceCtorEq]

end

end Format

/-! ## Counting in machine words -/

/-- Number of elements, in machine words. -/
def Variable.wordCount (v : Variable) : UInt64 :=
  Shape.wordProduct v.shape.dims

/-- Bytes that the elements take, in machine words. -/
def Variable.wordSize (v : Variable) : UInt64 :=
  v.wordCount * UInt64.ofNat v.elementType.byteSize

/-- A variable whose size a machine counts exactly: no product of leading dimensions leaves the
range of a word, nor does the size, so that what is computed without a check is right. -/
structure Variable.Countable (v : Variable) : Prop where
  products_lt : ∀ k ≤ v.shape.dims.length, (v.shape.dims.take k).prod < wordLimit
  size_lt : v.shape.dims.prod * v.elementType.byteSize < wordLimit
  elementCount_eq : v.elementCount = v.shape.dims.prod
  byteSize_eq : v.byteSize = v.shape.dims.prod * v.elementType.byteSize
  wordCount_eq : v.wordCount.toNat = v.elementCount
  wordSize_eq : v.wordSize.toNat = v.byteSize

/-- A variable whose products and size stay below the word limit is counted exactly. -/
lemma Variable.countable_of_lt {v : Variable}
    (hproducts : ∀ k ≤ v.shape.dims.length, (v.shape.dims.take k).prod < wordLimit)
    (hsize : v.shape.dims.prod * v.elementType.byteSize < wordLimit) : v.Countable := by
  have helements : v.elementCount = v.shape.dims.prod := Shape.product_eq_prod _
  have hbytes : v.byteSize = v.shape.dims.prod * v.elementType.byteSize := by
    rw [← helements]
    rfl
  have hwhole : v.shape.dims.prod < wordLimit := by
    simpa using hproducts v.shape.dims.length (Nat.le_refl _)
  have hcount : v.wordCount.toNat = v.shape.dims.prod := by
    rw [wordCount, Shape.toNat_wordProduct, Nat.mod_eq_of_lt hwhole]
  have htype : (UInt64.ofNat v.elementType.byteSize).toNat = v.elementType.byteSize := by
    cases v.elementType <;> rfl
  refine ⟨hproducts, hsize, helements, hbytes, hcount.trans helements.symm, ?_⟩
  rw [wordSize, UInt64.toNat_mul, hcount, htype, hbytes]
  exact Nat.mod_eq_of_lt hsize

/-! ## Entries -/

/-- The data index that names a place. -/
def Storage.dataIndex : Storage → Int
  | .buffer index => -(index : Int) - 1
  | .parameter block => block

/-- A variable has the fields of the entry it was read from. -/
structure Variable.ReadFrom (v : Variable) (blocks : BlockContents) (entry : Bytes) : Prop where
  id : entry.wordAt? 0 4 = some v.id.toNat
  dims : ListAt blocks entry 4 (asWords v.shape.dims)
  /-- The type code stands in the low four bits of the type word, and the binary point in the four
  bits above. -/
  typeWord : ∃ word, entry.wordAt? 12 4 = some word ∧ v.elementType.code = word % 16 ∧
    v.fixedPoint = word / 16 % 16
  dataIndex : entry.signedAt? 16 = some v.storage.dataIndex

/-- A function has the fields of the entry it was read from. -/
structure FunctionEntry.ReadFrom (f : FunctionEntry) (blocks : BlockContents) (entry : Bytes) :
    Prop where
  op : entry.wordAt? 0 2 = some f.op.code.toNat
  /-- An operator that has a name is not kept as a code. -/
  named : f.op = .ofCode f.op.code
  variant : entry.wordAt? 2 2 = some f.variant.toNat
  inputs : ListAt blocks entry 4 (asWords f.inputs)
  outputs : ListAt blocks entry 12 (asWords f.outputs)
  parameters : entry.slice? ⟨20, entry.length⟩ = some f.parameters

section

variable {blocks : BlockContents} {entry : Bytes}

/-- The place that a data index names is named by this data index. -/
lemma dataIndex_storageOf (index : Int) : (storageOf index).dataIndex = index := by
  unfold storageOf
  split
  · next hneg =>
    simp only [Storage.dataIndex]
    omega
  · next hpos => exact Int.toNat_of_nonneg (Int.not_lt.mp hpos)

/-- The variable of an entry that is in order has its fields. -/
theorem Variable.readFrom_variableAt {buffers : List Nat} (h : VariableFits blocks buffers entry)
    (inputs outputs : List Nat) (index : Nat) :
    (variableAt blocks inputs outputs index entry).ReadFrom blocks entry := by
  have hcomplete := h.complete
  obtain ⟨type, htype, -⟩ := ofCode?_eq_some h.type
  rw [variableAt_eq htype]
  refine ⟨?_, listAt_counts (by omega) h.shape,
    ⟨entry.word 12 4, Bytes.wordAt?_eq_some (by omega), ?_, rfl⟩, ?_⟩
  · rw [Bytes.wordAt?_eq_some (by omega), Bytes.toNat_ofNat32_word]
  · exact (ElementType.ofCode?_eq_some_iff.mp htype).symm
  · rw [Bytes.signedAt?_eq_some (by omega), dataIndex_storageOf]

/-- The variable of an entry that is in order is counted exactly. -/
theorem Variable.countable_variableAt {buffers : List Nat}
    (h : VariableFits blocks buffers entry) (inputs outputs : List Nat) (index : Nat) :
    (variableAt blocks inputs outputs index entry).Countable := by
  obtain ⟨type, htype, hbytes⟩ := ofCode?_eq_some h.type
  have hsize := h.size
  rw [← hbytes] at hsize
  rw [variableAt_eq htype]
  exact Variable.countable_of_lt h.products hsize

/-- The function of an entry that is in order has its fields. -/
theorem FunctionEntry.readFrom_functionAt {variableCount : Nat}
    (h : FunctionFits blocks variableCount entry) (index : Nat) :
    (functionAt blocks index entry).ReadFrom blocks entry := by
  have hcomplete := h.complete
  refine ⟨?_, ?_, ?_, listAt_indices (by omega) h.inputs, listAt_indices (by omega) h.outputs, ?_⟩
  · rw [Bytes.wordAt?_eq_some (by omega), functionAt, Operator.code_ofCode,
      Bytes.toNat_ofNat16_word]
  · rw [functionAt, Operator.code_ofCode]
  · rw [Bytes.wordAt?_eq_some (by omega), functionAt, Bytes.toNat_ofNat16_word]
  · rw [Bytes.slice?_eq_some hcomplete (Nat.le_refl _), functionAt, Bytes.slice, Span.length,
      List.take_of_length_le (by simp)]

end

/-! ## Networks -/

/-- What is made of a list item by item is related to it if each item is related to what is made of
it. -/
lemma forall₂_mapIdx {α β : Type} {R : α → β → Prop} (references : List α) (f : Nat → α → β)
    (h : ∀ (i : Nat), ∀ reference ∈ references, R reference (f i reference)) :
    references.Forall₂ R (references.mapIdx f) := by
  rw [List.forall₂_iff_get]
  refine ⟨List.length_mapIdx.symm, fun i hi _ => ?_⟩
  simp only [List.get_eq_getElem, List.getElem_mapIdx]
  exact h i _ (List.getElem_mem hi)

namespace Network

/-- The data of a variable is where its storage says: it has room in its buffer, or it stands at
the start of its block. -/
structure Places (network : Network) (v : Variable) : Prop where
  buffer : ∀ index, v.storage = .buffer index →
    (∃ capacity, network.buffers[index]? = some capacity ∧ v.elementCount ≤ capacity) ∧
      network.parameterData? v = none
  parameter : ∀ block, v.storage = .parameter block →
    ∃ data, network.blocks.block? block = some data ∧ v.byteSize ≤ data.length ∧
      network.parameterData? v = some (data.take v.byteSize)

/-- A variable plays the part that the network gives to it: being listed as an input comes first,
then being listed as an output, then having initial data. -/
structure Assigns (network : Network) (v : Variable) : Prop where
  input : v.role = .input ↔ v.index ∈ network.inputs
  output : v.role = .output ↔ v.index ∉ network.inputs ∧ v.index ∈ network.outputs
  parameter : v.role = .parameter ↔
    v.index ∉ network.inputs ∧ v.index ∉ network.outputs ∧ ∃ block, v.storage = .parameter block
  intermediate : v.role = .intermediate ↔
    v.index ∉ network.inputs ∧ v.index ∉ network.outputs ∧ ∃ index, v.storage = .buffer index

/-- A network that can be trusted to be the one that stands in a byte string. -/
structure ReadFrom (network : Network) (bytes : Bytes) : Prop where
  consistent : network.Consistent
  /-- The header has its fields at their offsets. -/
  version : bytes.wordAt? 0 4 = some network.version
  apiLevel : bytes.wordAt? 4 4 = some network.apiLevel
  buffers : ListAt network.blocks.block? bytes 8 (asWords network.buffers)
  inputs : ListAt network.blocks.block? bytes 32 (asWords network.inputs)
  outputs : ListAt network.blocks.block? bytes 40 (asWords network.outputs)
  /-- A block reaches from its offset to the next one, and all of it is there. -/
  block : ∀ (number : Nat) (contents : Bytes), network.blocks.block? number = some contents ↔
    number < blockCount bytes ∧
      bytes.slice? ⟨dataStart bytes + blockOffset bytes number,
        dataStart bytes + blockEnd bytes number⟩ = some contents
  /-- The entries of a table are the blocks that its list names, in order. -/
  variableTable : ∃ references, ListAt network.blocks.block? bytes 16 references ∧
    references.Forall₂ (fun reference v => ∃ entry,
      named? network.blocks.block? reference = some entry ∧
        v.ReadFrom network.blocks.block? entry) network.variableTable
  functions : ∃ references, ListAt network.blocks.block? bytes 24 references ∧
    references.Forall₂ (fun reference f => ∃ entry,
      named? network.blocks.block? reference = some entry ∧
        f.ReadFrom network.blocks.block? entry) network.functions
  countable : ∀ v ∈ network.variableTable, v.Countable
  places : ∀ v ∈ network.variableTable, network.Places v
  assigns : ∀ v ∈ network.variableTable, network.Assigns v

/-- A network gives a variable the part that comes first. -/
lemma assigns_of_role_eq {network : Network} {v : Variable}
    (h : v.role = roleOf network.inputs network.outputs v.index v.storage) :
    network.Assigns v := by
  unfold roleOf at h
  simp only [List.contains_iff_mem] at h
  by_cases hinput : v.index ∈ network.inputs
  · rw [if_pos hinput] at h
    constructor <;> simp [h, hinput]
  · by_cases houtput : v.index ∈ network.outputs
    · rw [if_neg hinput, if_pos houtput] at h
      constructor <;> simp [h, hinput, houtput]
    · rw [if_neg hinput, if_neg houtput] at h
      cases hstorage : v.storage with
      | buffer index =>
        rw [hstorage] at h
        constructor <;> simp [h, hinput, houtput, hstorage]
      | parameter block =>
        rw [hstorage] at h
        constructor <;> simp [h, hinput, houtput, hstorage]

section

variable {bytes : Bytes} {network : Network} {v : Variable}

/-- A buffer-backed variable has its buffer, with room for its elements. -/
lemma exists_capacity (h : Network.decode bytes = .ok network) (hv : v ∈ network.variableTable)
    {buffer : Nat} (hstorage : v.storage = .buffer buffer) :
    ∃ capacity, network.buffers[buffer]? = some capacity ∧ v.elementCount ≤ capacity := by
  obtain ⟨entry, hfits, index, rfl⟩ := exists_entry h hv
  obtain ⟨-, rfl⟩ := Network.decode_eq_ok_iff.mp h
  have hcount : (variableAt (Format.blocks bytes) (Format.network bytes).inputs
      (Format.network bytes).outputs index entry).elementCount =
        (dims (Format.blocks bytes) entry).prod := Shape.product_eq_prod _
  simp only [variableAt, storageOf] at hstorage
  split at hstorage
  · next hneg =>
    rw [Storage.buffer.injEq] at hstorage
    rw [hcount, ← hstorage]
    exact hfits.data.buffer hneg
  · cases hstorage

/-- The data of a variable of a network that was read is where its storage says. -/
theorem places_of_decode (h : Network.decode bytes = .ok network)
    (hv : v ∈ network.variableTable) : network.Places v where
  buffer index hstorage := by
    refine ⟨exists_capacity h hv hstorage, ?_⟩
    rw [parameterData?, hstorage]
  parameter block hstorage := by
    obtain ⟨data, hdata, hle⟩ := exists_parameterData h hv hstorage
    refine ⟨data, hdata, hle, ?_⟩
    rw [parameterData?, hstorage]
    simp only [hdata, if_pos hle]

/-- A network that was read gives each of its variables the part that comes first. -/
theorem assigns_of_decode (h : Network.decode bytes = .ok network)
    (hv : v ∈ network.variableTable) : network.Assigns v := by
  obtain ⟨entry, -, index, rfl⟩ := exists_entry h hv
  exact assigns_of_role_eq (by simp only [variableAt])

end

/-- **Trust**: the tables of a network that was read refer to each other in order, have the fields
that stand at their documented offsets in the blocks they name, have sizes that a machine counts
exactly, and place the data of every variable where it is there in full.

**Proof sketch.** A network that was read is the one of the format (`Network.decode_eq_ok_iff`), and
each of its entries was in order. What was in order stands at its offset in full
(`Format.listAt_items`, `Variable.readFrom_variableAt`, `FunctionEntry.readFrom_functionAt`), and
the checks on sizes keep every product within a word (`Variable.countable_variableAt`). -/
theorem readFrom_of_decode (bytes : Bytes) (network : Network)
    (h : Network.decode bytes = .ok network) : network.ReadFrom bytes := by
  have hconsistent := consistent_of_decode h
  have hplaces : ∀ v ∈ network.variableTable, network.Places v := fun v => places_of_decode h
  have hentries : ∀ v ∈ network.variableTable, v.Countable ∧ network.Assigns v := by
    intro v hv
    obtain ⟨entry, hfits, index, rfl⟩ := exists_entry h hv
    have hcountable := Variable.countable_variableAt hfits network.inputs network.outputs index
    exact ⟨hcountable, assigns_of_role_eq (by simp only [variableAt])⟩
  obtain ⟨hformed, rfl⟩ := Network.decode_eq_ok_iff.mp h
  have hheader := hformed.header
  have hblocks : (Format.network bytes).blocks.block? = Format.blocks bytes := by
    rw [network_blocks, block?_table hformed.offsets_within]
  refine ⟨hconsistent, Bytes.wordAt?_eq_some (by omega), Bytes.wordAt?_eq_some (by omega),
    ?_, ?_, ?_, ?_, ?_, ?_, fun v hv => (hentries v hv).1, hplaces, fun v hv => (hentries v hv).2⟩
  all_goals rw [hblocks]
  · exact listAt_counts (by omega) hformed.buffers
  · exact listAt_indices (by omega) hformed.inputs
  · exact listAt_indices (by omega) hformed.outputs
  · exact fun number contents => blocks_eq_some_iff hformed.toFramed
  · refine ⟨_, listAt_items (by omega) hformed.variableList, ?_⟩
    rw [network_variableTable]
    apply forall₂_mapIdx
    intro i reference hreference
    obtain ⟨entry, hnamed, hfits⟩ := hformed.variableEntries reference hreference
    rw [named_eq hnamed]
    exact ⟨entry, hnamed, Variable.readFrom_variableAt hfits _ _ _⟩
  · refine ⟨_, listAt_items (by omega) hformed.functionList, ?_⟩
    rw [network_functions]
    apply forall₂_mapIdx
    intro i reference hreference
    obtain ⟨entry, hnamed, hfits⟩ := hformed.functionEntries reference hreference
    rw [named_eq hnamed]
    exact ⟨entry, hnamed, FunctionEntry.readFrom_functionAt hfits _⟩

/-- A descriptor with two variables in one buffer and a function from the first to the second. The
list of inputs is also the input list of the function; the list of outputs is also its output list,
the list of buffers, and the shape of both variables. -/
def sharedBlocks : Bytes :=
  [2, 7, 1, 1, 2, 2, 1, 5, 1, 0, 1, 1, 7, 81,
   0, 4, 8, 16, 36, 56, 60,
   0, 1, 3, 4,
   8, 1, 1, 0, 0xffffffff,
   9, 1, 1, 0, 0xffffffff,
   6,
   0x3000e, 1, 0, 1, 1].flatMap (Bytes.ofNatLE 4) ++ [42]

/-- The tables of this descriptor: its function is a rectifier with one byte of its own. -/
theorem readFrom_sharedBlocks :
    ∃ network, Network.decode sharedBlocks = .ok network ∧ network.ReadFrom sharedBlocks ∧
      network.buffers = [1] ∧ network.inputs = [0] ∧ network.outputs = [1] ∧
      network.variableTable.map (fun v => (v.shape.dims, v.storage)) =
        [([1], .buffer 0), ([1], .buffer 0)] ∧
      network.functions.map (fun f => (f.op, f.variant, f.inputs, f.outputs, f.parameters)) =
        [(.relu, 3, [0], [1], [42])] := by
  have hdecode : Network.decode sharedBlocks = .ok (Format.network sharedBlocks) := by
    decide +kernel
  exact ⟨_, hdecode, readFrom_of_decode _ _ hdecode, by decide +kernel, by decide +kernel,
    by decide +kernel, by decide +kernel, by decide +kernel⟩

end Network

end Inference
