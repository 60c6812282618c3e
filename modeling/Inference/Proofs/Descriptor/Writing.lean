import Inference.Descriptor.Draft
import Inference.Proofs.Descriptor.Acceptance
import Inference.Total

set_option autoImplicit false
set_option relaxedAutoImplicit false

/-!
# What is written

The bytes of a draft, as the format sees them: the header's fields, and the blocks in the order in
which they were placed.

## Main definitions

* `Draft.Fits` — a draft whose numbers fit the words they are written to.

## Main results

* `items_indexBlock`, `indicesFit_indexBlock_iff` — a list that was written is read back.
* `Draft.read_encode` — the header's fields are read back.
* `Draft.blocks_encode` — the blocks that are found are the blocks that were placed.
-/

namespace Inference

open Format

/-! ## Lists -/

/-- A block of indices or counts has four bytes for each. -/
@[simp]
lemma length_indexBlock (values : List Nat) : (indexBlock values).length = 4 * values.length := by
  induction values with
  | nil => rfl
  | cons value rest ih =>
    simp only [indexBlock, List.flatMap_cons, List.length_append, Bytes.length_ofNatLE,
      List.length_cons] at ih ⊢
    omega

/-- The word at the place of a value is the value, if it fits. -/
lemma word_indexBlock {values : List Nat} {k : Nat} (hk : k < values.length)
    (hfit : values[k] < 0x100000000) (rest : Bytes) :
    Bytes.word (indexBlock values ++ rest) (4 * k) 4 = values[k] := by
  induction values generalizing k with
  | nil => simp at hk
  | cons value values ih =>
    rw [indexBlock, List.flatMap_cons, List.append_assoc]
    cases k with
    | zero => exact Bytes.word_ofNatLE (Bytes.capacity_four ▸ hfit) _
    | succ k =>
      have hlength : (Bytes.ofNatLE 4 value).length ≤ 4 * (k + 1) := by
        rw [Bytes.length_ofNatLE]
        omega
      rw [Bytes.word_append_right _ hlength, Bytes.length_ofNatLE,
        show 4 * (k + 1) - 4 = 4 * k by omega]
      exact ih (by simpa using hk) (by simpa using hfit)

section

variable {blocks : BlockContents} {number : Nat} {values : List Nat}

/-- A number refers to the block that has it. -/
lemma named?_natCast (blocks : BlockContents) (number : Nat) :
    named? blocks number = blocks number := by
  rw [named?, if_neg (by omega), Int.toNat_natCast]

/-- A list that was written can be followed. -/
lemma listFits_indexBlock (hblock : blocks number = some (indexBlock values)) :
    ListFits blocks ⟨values.length, number⟩ := by
  refine .inr ⟨indexBlock values, ?_, by simp⟩
  rw [named?_natCast, hblock]

/-- The items of a list that was written are its values. -/
theorem items_indexBlock (hblock : blocks number = some (indexBlock values))
    (hfit : ∀ value ∈ values, value < 0x80000000) :
    items blocks ⟨values.length, number⟩ = values.map Int.ofNat := by
  have hnamed : named blocks number = indexBlock values :=
    named_eq ((named?_natCast blocks number).trans hblock)
  apply List.ext_getElem
  · simp
  · intro k hk _
    have hk : k < values.length := by simpa using hk
    have hsmall := hfit _ (List.getElem_mem hk)
    have hword := word_indexBlock hk (by omega) []
    rw [List.append_nil] at hword
    rw [getElem_items, hnamed, Bytes.signedWord, hword, List.getElem_map]
    exact Bytes.signed32_natCast hsmall

/-- The indices of a list that was written are its values. -/
lemma indices_indexBlock (hblock : blocks number = some (indexBlock values))
    (hfit : ∀ value ∈ values, value < 0x80000000) :
    indices blocks ⟨values.length, number⟩ = values := by
  rw [indices, items_indexBlock hblock hfit, List.map_map]
  exact List.map_id values

/-- No item of a list that was written is negative. -/
lemma countsFit_indexBlock (hblock : blocks number = some (indexBlock values))
    (hfit : ∀ value ∈ values, value < 0x80000000) :
    CountsFit blocks ⟨values.length, number⟩ := by
  refine ⟨listFits_indexBlock hblock, ?_⟩
  rw [items_indexBlock hblock hfit, List.forall_mem_map]
  exact fun value _ => Int.natCast_nonneg value

/-- The items of a list that was written are indices below a count when its values are. -/
theorem indicesFit_indexBlock_iff (hblock : blocks number = some (indexBlock values))
    (hfit : ∀ value ∈ values, value < 0x80000000) (count : Nat) :
    IndicesFit blocks ⟨values.length, number⟩ count ↔ ∀ value ∈ values, value < count := by
  rw [IndicesFit, and_iff_right (listFits_indexBlock hblock), items_indexBlock hblock hfit,
    List.forall_mem_map]
  simp

end

/-! ## The header -/

/-- A list reference takes eight bytes. -/
@[simp]
lemma length_listRefBytes (count block : Nat) : (listRefBytes count block).length = 8 := by
  simp [listRefBytes]

/-- Behind a front part, list references stand at their position less its length. -/
lemma ListRef.read_append_right {front : Bytes} (back : Bytes) {offset : Nat}
    (h : front.length ≤ offset) :
    ListRef.read (front ++ back) offset = ListRef.read back (offset - front.length) := by
  rw [ListRef.read, ListRef.read, Bytes.signedWord, Bytes.signedWord,
    Bytes.word_append_right back h, Bytes.word_append_right back (by omega),
    show offset + 4 - front.length = offset - front.length + 4 by omega]

/-- A list reference at the front is read back if its numbers fit. -/
lemma ListRef.read_listRefBytes {count block : Nat} (hcount : count < 0x100000000)
    (hblock : block < 0x80000000) (rest : Bytes) :
    ListRef.read (listRefBytes count block ++ rest) 0 = ⟨count, block⟩ := by
  have hfits : block < Bytes.capacity 4 := by
    rw [Bytes.capacity_four]
    omega
  rw [ListRef.read, listRefBytes, List.append_assoc, Bytes.word_ofNatLE hcount,
    Bytes.signedWord, Bytes.word_append_right _ (by simp), Bytes.length_ofNatLE,
    Bytes.word_ofNatLE hfits, Bytes.signed32_natCast hblock]

namespace Draft

/-- The header takes 56 bytes. -/
@[simp]
lemma length_header (draft : Draft) (blockCount dataSize variableTable functionTable : Nat) :
    (draft.header blockCount dataSize variableTable functionTable).length = 56 := by
  simp [header]

/-- The fields of a header are read back if its numbers fit. -/
theorem read_header (draft : Draft) {blockCount dataSize variableTable functionTable : Nat}
    (hbuffers : draft.buffers.length < 0x100000000)
    (hvariables : draft.variableTable.length < 0x100000000)
    (hfunctions : draft.functions.length < 0x100000000)
    (hinputs : draft.inputs.length < 0x100000000)
    (houtputs : draft.outputs.length < 0x100000000)
    (hcount : blockCount < 0x100000000) (hsize : dataSize < 0x100000000)
    (hvariableTable : variableTable < 0x80000000) (hfunctionTable : functionTable < 0x80000000)
    (rest : Bytes) :
    Header.read (draft.header blockCount dataSize variableTable functionTable ++ rest) =
      { version := 2
        apiLevel := draft.apiLevel.toNat
        buffers := ⟨draft.buffers.length, 2⟩
        variableTable := ⟨draft.variableTable.length, variableTable⟩
        functions := ⟨draft.functions.length, functionTable⟩
        inputs := ⟨draft.inputs.length, 0⟩
        outputs := ⟨draft.outputs.length, 1⟩
        blockCount := blockCount
        dataSize := dataSize } := by
  have hversion : descriptorVersion < Bytes.capacity 4 := by decide
  have hlevel : draft.apiLevel.toNat < Bytes.capacity 4 := draft.apiLevel.toNat_lt
  simp only [header, List.append_assoc, Header.read, Header.mk.injEq]
  rw [← Bytes.capacity_four] at hcount hsize
  refine ⟨Bytes.word_ofNatLE hversion _, ?_, ?_, ?_, ?_, ?_, ?_, ?_, ?_⟩
  -- each field stands behind fields of four or eight bytes
  all_goals simp only [Bytes.word_append_right, ListRef.read_append_right, Bytes.length_ofNatLE,
    length_listRefBytes, Nat.reduceLeDiff, Nat.reduceSub, Nat.le_refl]
  · exact Bytes.word_ofNatLE hlevel _
  · exact ListRef.read_listRefBytes hbuffers (by decide) _
  · exact ListRef.read_listRefBytes hvariables hvariableTable _
  · exact ListRef.read_listRefBytes hfunctions hfunctionTable _
  · exact ListRef.read_listRefBytes hinputs (by decide) _
  · exact ListRef.read_listRefBytes houtputs (by decide) _
  · exact Bytes.word_ofNatLE hcount _
  · exact Bytes.word_ofNatLE hsize _

end Draft

/-! ## Blocks -/

/-- Every block has an offset. -/
@[simp]
lemma length_blockOffsets (start : Nat) (placed : List Bytes) :
    (blockOffsets start placed).length = placed.length := by
  induction placed generalizing start with
  | nil => rfl
  | cons block rest ih => simp [blockOffsets, ih]

/-- The offset of a block is the length of the blocks before it. -/
lemma getElem_blockOffsets (start : Nat) (placed : List Bytes) (i : Nat)
    (hi : i < (blockOffsets start placed).length) :
    (blockOffsets start placed)[i] = start + (placed.take i).flatten.length := by
  induction placed generalizing start i with
  | nil => simp [blockOffsets] at hi
  | cons block rest ih =>
    cases i with
    | zero => simp [blockOffsets]
    | succ i =>
      simp only [blockOffsets, List.getElem_cons_succ, List.take_succ_cons, List.flatten_cons,
        List.length_append]
      rw [ih, Nat.add_assoc]

/-- Blocks one after another are as long as they are together. -/
lemma total_map_length (blocks : List Bytes) :
    total (blocks.map List.length) = blocks.flatten.length := by
  induction blocks with
  | nil => rfl
  | cons block blocks ih => rw [List.map_cons, total, ih, List.flatten_cons, List.length_append]

/-- Blocks after one another: the first ones are no longer than all of them. -/
lemma length_flatten_take_le (placed : List Bytes) (i : Nat) :
    (placed.take i).flatten.length ≤ placed.flatten.length := by
  have h := congrArg (fun l => (List.flatten l).length) (List.take_append_drop i placed)
  simp only [List.flatten_append, List.length_append] at h
  omega

/-- Blocks after one another: a block stands behind the ones before it. -/
lemma slice_flatten (placed : List Bytes) (i : Nat) (hi : i < placed.length) :
    Bytes.slice placed.flatten
      ⟨(placed.take i).flatten.length, (placed.take (i + 1)).flatten.length⟩ = placed[i] := by
  have hend : (placed.take (i + 1)).flatten.length =
      (placed.take i).flatten.length + placed[i].length := by
    rw [List.take_succ_eq_append_getElem hi, List.flatten_append, List.length_append]
    simp
  have hsplit : placed.flatten =
      (placed.take i).flatten ++ (placed[i] ++ (placed.drop (i + 1)).flatten) := by
    rw [← List.flatten_cons, ← List.drop_eq_getElem_cons hi, ← List.flatten_append,
      List.take_append_drop]
  rw [Bytes.slice, Span.length, hend, Nat.add_sub_cancel_left, hsplit, List.drop_append_length,
    List.take_append_length]

namespace Draft

/-- The numbers of a draft fit the words they are written to, its blocks fit the words that count
them, and no operator that has a name is kept as a code. -/
structure Fits (draft : Draft) : Prop where
  buffers : ∀ size ∈ draft.buffers, size < 0x80000000
  inputs : ∀ index ∈ draft.inputs, index < 0x80000000
  outputs : ∀ index ∈ draft.outputs, index < 0x80000000
  dims : ∀ v ∈ draft.variableTable, ∀ dim ∈ v.dims, dim < 0x80000000
  fixedPoints : ∀ v ∈ draft.variableTable, v.fixedPoint < 16
  backings : ∀ v ∈ draft.variableTable, ∀ buffer, v.backing = .buffer buffer →
    buffer < 0x80000000
  operators : ∀ f ∈ draft.functions, f.op = .ofCode f.op.code
  functionInputs : ∀ f ∈ draft.functions, ∀ index ∈ f.inputs, index < 0x80000000
  functionOutputs : ∀ f ∈ draft.functions, ∀ index ∈ f.outputs, index < 0x80000000
  blockCount : draft.blocks.1.length < 0x80000000
  dataSize : total (draft.blocks.1.map List.length) < 0x100000000

variable {draft : Draft}

/-- The bytes of a draft are its header, the offsets of its blocks, and its blocks. -/
lemma encode_eq (draft : Draft) :
    draft.encode =
      draft.header draft.blocks.1.length draft.blocks.1.flatten.length draft.blocks.2.1
          draft.blocks.2.2 ++
        (indexBlock (blockOffsets 0 draft.blocks.1) ++ draft.blocks.1.flatten) := by
  rw [← List.append_assoc]
  rfl

/-- The blocks of the variables, placed behind three lists, and their entries. -/
def variableRun (draft : Draft) : List Bytes × List Nat :=
  placeAll VariableDraft.blocks 3 draft.variableTable

/-- The number of the variable table: it stands behind the blocks of the variables. -/
def variableTableBlock (draft : Draft) : Nat :=
  3 + draft.variableRun.1.length

/-- The blocks of the functions, placed behind the variable table, and their entries. -/
def functionRun (draft : Draft) : List Bytes × List Nat :=
  placeAll FunctionDraft.blocks (draft.variableTableBlock + 1) draft.functions

/-- The number of the function table: it stands behind the blocks of the functions. -/
def functionTableBlock (draft : Draft) : Nat :=
  draft.variableTableBlock + 1 + draft.functionRun.1.length

/-- The blocks of a draft in order, and the numbers of its tables. -/
lemma blocks_eq (draft : Draft) :
    draft.blocks =
      ([indexBlock draft.inputs, indexBlock draft.outputs, indexBlock draft.buffers] ++
          draft.variableRun.1 ++ [indexBlock draft.variableRun.2] ++ draft.functionRun.1 ++
          [indexBlock draft.functionRun.2],
        draft.variableTableBlock, draft.functionTableBlock) :=
  rfl

end Draft

/-- The blocks with the numbers from `first` on are the given ones. -/
def HoldsFrom (blocks : BlockContents) (first : Nat) (placed : List Bytes) : Prop :=
  ∀ j (hj : j < placed.length), blocks (first + j) = some placed[j]

/-- The blocks of a list have the numbers from zero on. -/
lemma holdsFrom_getElem? (placed : List Bytes) : HoldsFrom (fun i => placed[i]?) 0 placed := by
  intro j hj
  simp [hj]

/-- A single block is held under its number. -/
lemma holdsFrom_singleton_iff {blocks : BlockContents} {first : Nat} {block : Bytes} :
    HoldsFrom blocks first [block] ↔ blocks first = some block := by
  constructor
  · exact fun h => h 0 (by simp)
  · intro h j hj
    obtain rfl : j = 0 := by simpa using hj
    exact h

/-- The two parts of blocks that are held are held. -/
lemma holdsFrom_append_iff {blocks : BlockContents} {first : Nat} {front back : List Bytes} :
    HoldsFrom blocks first (front ++ back) ↔
      HoldsFrom blocks first front ∧ HoldsFrom blocks (first + front.length) back := by
  constructor
  · intro h
    refine ⟨fun j hj => ?_, fun j hj => ?_⟩
    · rw [h j (by simp; omega), List.getElem_append_left hj]
    · rw [Nat.add_assoc, h (front.length + j) (by simpa using hj),
        List.getElem_append_right (Nat.le_add_right _ _)]
      simp
  · rintro ⟨hfront, hback⟩ j hj
    rcases Nat.lt_or_ge j front.length with hlt | hge
    · rw [List.getElem_append_left hlt, hfront j hlt]
    · have hj' : j - front.length < back.length := by
        simp only [List.length_append] at hj
        omega
      have := hback (j - front.length) hj'
      rwa [show first + front.length + (j - front.length) = first + j by omega,
        ← List.getElem_append_right hge] at this

section

variable {α : Type} {build : Nat → α → List Bytes}

/-- Every thing that is placed has an entry. -/
@[simp]
lemma length_placeAll_snd (build : Nat → α → List Bytes) (first : Nat) (xs : List α) :
    (placeAll build first xs).2.length = xs.length := by
  induction xs generalizing first with
  | nil => rfl
  | cons x rest ih => simp [placeAll, ih]

/-- **Placement**: each thing's own blocks are found from some number on, and its entry is the
last of them.

**Proof sketch.** Induction on the things. The first one's blocks come first; the others are
placed behind them. -/
theorem exists_placement {blocks : BlockContents} {first : Nat} {xs : List α}
    (h : HoldsFrom blocks first (placeAll build first xs).1) (i : Nat) (hi : i < xs.length) :
    ∃ own, own + (build own xs[i]).length ≤ first + (placeAll build first xs).1.length ∧
      HoldsFrom blocks own (build own xs[i]) ∧
      (placeAll build first xs).2[i]? = some (own + (build own xs[i]).length - 1) := by
  induction xs generalizing first i with
  | nil => simp at hi
  | cons x rest ih =>
    simp only [placeAll] at h ⊢
    obtain ⟨hown, hrest⟩ := holdsFrom_append_iff.mp h
    cases i with
    | zero => exact ⟨first, by simp, hown, by simp⟩
    | succ i =>
      obtain ⟨own, hbound, hheld, hentry⟩ := ih hrest i (by simpa using hi)
      refine ⟨own, ?_, by simpa using hheld, by simpa using hentry⟩
      simp only [List.getElem_cons_succ, List.length_append]
      omega

end

namespace Draft

/-- Where the parts of a draft stand among its blocks. -/
structure Layout (draft : Draft) (blocks : BlockContents) : Prop where
  inputs : blocks 0 = some (indexBlock draft.inputs)
  outputs : blocks 1 = some (indexBlock draft.outputs)
  buffers : blocks 2 = some (indexBlock draft.buffers)
  variableEntries : HoldsFrom blocks 3 draft.variableRun.1
  variableTable : blocks draft.variableTableBlock = some (indexBlock draft.variableRun.2)
  functionEntries : HoldsFrom blocks (draft.variableTableBlock + 1) draft.functionRun.1
  functionTable : blocks draft.functionTableBlock = some (indexBlock draft.functionRun.2)

variable {draft : Draft}

/-- The parts of a draft stand where its tables say. -/
theorem layout (draft : Draft) : draft.Layout fun i => draft.blocks.1[i]? := by
  have h := holdsFrom_getElem? draft.blocks.1
  rw [show draft.blocks.1 = [indexBlock draft.inputs] ++ ([indexBlock draft.outputs] ++
    ([indexBlock draft.buffers] ++ (draft.variableRun.1 ++ ([indexBlock draft.variableRun.2] ++
      (draft.functionRun.1 ++ [indexBlock draft.functionRun.2]))))) by simp [blocks_eq]] at h ⊢
  simp only [holdsFrom_append_iff, holdsFrom_singleton_iff, List.length_singleton] at h
  obtain ⟨hinputs, houtputs, hbuffers, hvariables, hvariableTable, hfunctions, hfunctionTable⟩ :=
    h
  exact ⟨hinputs, houtputs, hbuffers, hvariables, hvariableTable, hfunctions, hfunctionTable⟩

/-- A block that a draft writes is shorter than the range of a word. -/
lemma length_block_lt (h : draft.Fits) {block : Bytes} (hmem : block ∈ draft.blocks.1) :
    block.length < 0x100000000 := by
  have hle := (List.sublist_flatten_of_mem hmem).length_le
  have hsize := h.dataSize
  rw [← total_map_length] at hle
  omega

/-- A list that a draft writes is shorter than the range of a word. -/
lemma length_list_lt (h : draft.Fits) {values : List Nat}
    (hmem : indexBlock values ∈ draft.blocks.1) : values.length < 0x100000000 := by
  have hblock := length_block_lt h hmem
  rw [length_indexBlock] at hblock
  omega

/-- The header's fields of a draft's bytes. -/
theorem read_encode (h : draft.Fits) :
    Header.read draft.encode =
      { version := 2
        apiLevel := draft.apiLevel.toNat
        buffers := ⟨draft.buffers.length, 2⟩
        variableTable := ⟨draft.variableTable.length, draft.variableTableBlock⟩
        functions := ⟨draft.functions.length, draft.functionTableBlock⟩
        inputs := ⟨draft.inputs.length, 0⟩
        outputs := ⟨draft.outputs.length, 1⟩
        blockCount := draft.blocks.1.length
        dataSize := draft.blocks.1.flatten.length } := by
  have hcount := h.blockCount
  have hsize := h.dataSize
  rw [total_map_length] at hsize
  have hlength : draft.blocks.1.length = draft.functionTableBlock + 1 := by
    simp [blocks_eq, functionTableBlock, variableTableBlock]
    omega
  have hvariables : draft.variableRun.2.length < 0x100000000 :=
    length_list_lt h (by simp [blocks_eq])
  have hfunctions : draft.functionRun.2.length < 0x100000000 :=
    length_list_lt h (by simp [blocks_eq])
  have htables : draft.variableTableBlock < draft.functionTableBlock := by
    rw [functionTableBlock]
    omega
  rw [variableRun, length_placeAll_snd] at hvariables
  rw [functionRun, length_placeAll_snd] at hfunctions
  rw [encode_eq]
  exact read_header draft (length_list_lt h (by simp [blocks_eq])) hvariables hfunctions
    (length_list_lt h (by simp [blocks_eq])) (length_list_lt h (by simp [blocks_eq]))
    (by omega) hsize (show draft.variableTableBlock < _ by omega)
    (show draft.functionTableBlock < _ by omega) _

/-- The version is read back. -/
lemma version_encode (h : draft.Fits) : Bytes.word draft.encode 0 4 = 2 := by
  have hfield := congrArg Header.version (read_encode h)
  simpa only [Header.read] using hfield

/-- The level is read back. -/
lemma apiLevel_encode (h : draft.Fits) :
    Bytes.word draft.encode 4 4 = draft.apiLevel.toNat := by
  have hfield := congrArg Header.apiLevel (read_encode h)
  simpa only [Header.read] using hfield

/-- The reference to the buffers is read back. -/
lemma read_buffers (h : draft.Fits) :
    ListRef.read draft.encode 8 = ⟨draft.buffers.length, (2 : Nat)⟩ := by
  have hfield := congrArg Header.buffers (read_encode h)
  simp only [Header.read] at hfield
  exact hfield

/-- The reference to the variable table is read back. -/
lemma read_variableTable (h : draft.Fits) :
    ListRef.read draft.encode 16 = ⟨draft.variableTable.length, draft.variableTableBlock⟩ := by
  have hfield := congrArg Header.variableTable (read_encode h)
  simpa only [Header.read] using hfield

/-- The reference to the function table is read back. -/
lemma read_functionTable (h : draft.Fits) :
    ListRef.read draft.encode 24 = ⟨draft.functions.length, draft.functionTableBlock⟩ := by
  have hfield := congrArg Header.functions (read_encode h)
  simpa only [Header.read] using hfield

/-- The reference to the network inputs is read back. -/
lemma read_inputs (h : draft.Fits) :
    ListRef.read draft.encode 32 = ⟨draft.inputs.length, (0 : Nat)⟩ := by
  have hfield := congrArg Header.inputs (read_encode h)
  simp only [Header.read] at hfield
  exact hfield

/-- The reference to the network outputs is read back. -/
lemma read_outputs (h : draft.Fits) :
    ListRef.read draft.encode 40 = ⟨draft.outputs.length, (1 : Nat)⟩ := by
  have hfield := congrArg Header.outputs (read_encode h)
  simp only [Header.read] at hfield
  exact hfield

/-- As many blocks are found in a draft's bytes as were placed. -/
lemma blockCount_encode (h : draft.Fits) :
    Format.blockCount draft.encode = draft.blocks.1.length := by
  have hfield := congrArg Header.blockCount (read_encode h)
  simpa only [Header.read, Format.blockCount] using hfield

/-- The data region of a draft's bytes has as many bytes as the blocks have. -/
lemma dataSize_encode (h : draft.Fits) :
    Format.dataSize draft.encode = draft.blocks.1.flatten.length := by
  have hfield := congrArg Header.dataSize (read_encode h)
  simpa only [Header.read, Format.dataSize] using hfield

/-- The offset of a block is the length of the blocks that were placed before it. -/
lemma blockOffset_encode (h : draft.Fits) {i : Nat} (hi : i < draft.blocks.1.length) :
    blockOffset draft.encode i = (draft.blocks.1.take i).flatten.length := by
  have hi' : i < (blockOffsets 0 draft.blocks.1).length := by simpa using hi
  have hvalue := getElem_blockOffsets 0 draft.blocks.1 i hi'
  rw [Nat.zero_add] at hvalue
  have hfit : (blockOffsets 0 draft.blocks.1)[i] < 0x100000000 := by
    have hle := length_flatten_take_le draft.blocks.1 i
    have hsize := h.dataSize
    rw [total_map_length] at hsize
    omega
  rw [blockOffset, encode_eq, Bytes.word_append_right _ (by simp), length_header,
    Nat.add_sub_cancel_left, word_indexBlock hi' hfit, hvalue]

/-- A block ends where the blocks that were placed up to it end. -/
lemma blockEnd_encode (h : draft.Fits) {i : Nat} (hi : i < draft.blocks.1.length) :
    blockEnd draft.encode i = (draft.blocks.1.take (i + 1)).flatten.length := by
  rw [blockEnd, blockCount_encode h, dataSize_encode h]
  split
  case isTrue hnext => exact blockOffset_encode h hnext
  case isFalse hlast => rw [List.take_of_length_le (by omega)]

/-- **Blocks of a draft**: the blocks that are found in a draft's bytes are the blocks that were
placed.

**Proof sketch.** The data region stands behind the header and the offsets, and the two offsets
around a block are the lengths of the blocks before it and up to it. -/
theorem blocks_encode (h : draft.Fits) :
    Format.blocks draft.encode = fun i => draft.blocks.1[i]? := by
  funext i
  rw [Format.blocks, blockCount_encode h]
  split
  case isFalse hlast => rw [List.getElem?_eq_none (by omega)]
  case isTrue hi =>
    have hfront : dataStart draft.encode = (draft.header draft.blocks.1.length
        draft.blocks.1.flatten.length draft.blocks.2.1 draft.blocks.2.2 ++
          indexBlock (blockOffsets 0 draft.blocks.1)).length := by
      rw [dataStart, blockCount_encode h, List.length_append, length_header, length_indexBlock,
        length_blockOffsets]
    rw [blockOffset_encode h hi, blockEnd_encode h hi, hfront, encode_eq, ← List.append_assoc,
      Bytes.slice_append_right, slice_flatten _ _ hi, List.getElem?_eq_getElem hi]

/-- The bytes of a draft are cut into blocks. -/
theorem framed_encode (h : draft.Fits) : Framed draft.encode where
  header := by
    rw [encode_eq, List.length_append, length_header]
    omega
  version := version_encode h
  extent := by
    rw [blockCount_encode h, dataSize_encode h, encode_eq]
    simp only [List.length_append, length_header, length_indexBlock, length_blockOffsets]
    omega
  offsets_within := by
    intro i hi
    rw [blockCount_encode h] at hi
    rw [blockOffset_encode h hi, dataSize_encode h]
    exact length_flatten_take_le _ _
  offsets_ordered := by
    intro i j hij hj
    rw [blockCount_encode h] at hj
    rw [blockOffset_encode h hj, blockOffset_encode h (by omega),
      show draft.blocks.1.take i = (draft.blocks.1.take j).take i by
        rw [List.take_take, Nat.min_eq_left hij]]
    exact length_flatten_take_le _ _

end Draft

end Inference
