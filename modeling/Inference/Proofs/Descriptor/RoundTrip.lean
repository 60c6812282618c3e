import Inference.Proofs.Descriptor.WrittenEntries

set_option autoImplicit false
set_option relaxedAutoImplicit false

/-!
# Reading what was written

The bytes of a draft whose numbers fit their words are a descriptor exactly when the draft is
valid, and then they are read as what was written.

## Main definitions

* `Draft.Valid` — a draft whose references lead to what they need.
* `Draft.Reproduces` — the tables of a network are those of a draft.

## Main results

* `Draft.wellFormed_encode_iff` — the bytes of a draft are a descriptor when the draft is valid.
* `Draft.decode_encode_ok_iff_valid` — reading what was written.
-/

namespace Inference

open Format

namespace Draft

variable {draft : Draft}

/-! ## Placement -/

/-- The parts of a draft stand in its bytes where its tables say. -/
lemma layout_encode (h : draft.Fits) : draft.Layout (Format.blocks draft.encode) := by
  rw [blocks_encode h]
  exact draft.layout

/-- A block that is found in a draft's bytes is shorter than the range of a word. -/
lemma length_found_lt (h : draft.Fits) {i : Nat} {block : Bytes}
    (hblock : Format.blocks draft.encode i = some block) : block.length < 0x100000000 := by
  rw [blocks_encode h] at hblock
  exact length_block_lt h (List.mem_of_getElem? hblock)

/-- A list that is found in a draft's bytes is shorter than the range of a word. -/
lemma length_foundList_lt (h : draft.Fits) {i : Nat} {values : List Nat}
    (hblock : Format.blocks draft.encode i = some (indexBlock values)) :
    values.length < 0x100000000 := by
  have hlength := length_found_lt h hblock
  rw [length_indexBlock] at hlength
  omega

/-- The tables have numbers below half the range of a word, and the variables and functions stand
before them. -/
lemma tableBlocks_lt (h : draft.Fits) :
    3 + draft.variableRun.1.length < 0x80000000 ∧
      draft.variableTableBlock + 1 + draft.functionRun.1.length < 0x80000000 := by
  have hcount := h.blockCount
  simp only [blocks_eq, variableTableBlock, List.length_append, List.length_cons,
    List.length_nil] at hcount ⊢
  omega

/-- The blocks of each variable stand in a draft's bytes, and the variable table lists its
entry. -/
theorem exists_placed_variable (h : draft.Fits) (i : Nat) (hi : i < draft.variableTable.length) :
    ∃ shapeBlock number, draft.variableRun.2[i]? = some number ∧
      draft.variableTable[i].Placed (Format.blocks draft.encode) shapeBlock number := by
  obtain ⟨own, hbound, hheld, hentry⟩ := exists_placement (layout_encode h).variableEntries i hi
  obtain ⟨hshape, hdata, hplaced⟩ := VariableDraft.of_holdsFrom hheld
  have hmem : draft.variableTable[i] ∈ draft.variableTable := List.getElem_mem hi
  have hlength := VariableDraft.length_blocks own draft.variableTable[i]
  have htable : 3 + (placeAll VariableDraft.blocks 3 draft.variableTable).1.length <
      0x80000000 := (tableBlocks_lt h).1
  exact ⟨own, _, hentry,
    { shape := hshape
      data := hdata
      entry := hplaced
      rank_lt := length_foundList_lt h hshape
      dims_lt := h.dims _ hmem
      fixedPoint_lt := h.fixedPoints _ hmem
      buffer_lt := h.backings _ hmem
      bytes_lt := fun bytes hbacking => length_found_lt h (hdata bytes hbacking)
      shapeBlock_lt := by omega }⟩

/-- The blocks of each function stand in a draft's bytes, and the function table lists its
entry. -/
theorem exists_placed_function (h : draft.Fits) (i : Nat) (hi : i < draft.functions.length) :
    ∃ inputBlock number, draft.functionRun.2[i]? = some number ∧
      draft.functions[i].Placed (Format.blocks draft.encode) inputBlock number := by
  obtain ⟨own, hbound, hheld, hentry⟩ := exists_placement (layout_encode h).functionEntries i hi
  obtain ⟨hinputs, houtputs, hplaced⟩ := FunctionDraft.of_holdsFrom hheld
  have hmem : draft.functions[i] ∈ draft.functions := List.getElem_mem hi
  have hlength : (FunctionDraft.blocks own draft.functions[i]).length = 3 := rfl
  have htable : draft.variableTableBlock + 1 + (placeAll FunctionDraft.blocks
      (draft.variableTableBlock + 1) draft.functions).1.length < 0x80000000 :=
    (tableBlocks_lt h).2
  exact ⟨own, _, hentry,
    { inputs := hinputs
      outputs := houtputs
      entry := hplaced
      inputs_length_lt := length_foundList_lt h hinputs
      outputs_length_lt := length_foundList_lt h houtputs
      inputs_lt := h.functionInputs _ hmem
      outputs_lt := h.functionOutputs _ hmem
      inputBlock_lt := by omega }⟩

/-! ## Tables -/

/-- Every number that a placement lists stands before its end. -/
lemma placeAll_snd_lt {α : Type} {build : Nat → α → List Bytes}
    (hbuild : ∀ first x, 1 ≤ (build first x).length) {first : Nat} {xs : List α} :
    ∀ number ∈ (placeAll build first xs).2,
      number < first + (placeAll build first xs).1.length := by
  induction xs generalizing first with
  | nil => simp [placeAll]
  | cons x rest ih =>
    have hown := hbuild first x
    intro number hmem
    simp only [placeAll, List.mem_cons, List.length_append] at hmem ⊢
    rcases hmem with rfl | hmem
    · omega
    · have hlt := ih number hmem
      omega

/-- The variable table lists numbers below half the range of a word. -/
lemma variableRun_lt (h : draft.Fits) : ∀ number ∈ draft.variableRun.2, number < 0x80000000 := by
  intro number hmem
  have hlt := placeAll_snd_lt
    (fun first v => Nat.le_of_succ_le (VariableDraft.length_blocks first v)) number hmem
  have htable : 3 + (placeAll VariableDraft.blocks 3 draft.variableTable).1.length <
      0x80000000 := (tableBlocks_lt h).1
  omega

/-- The function table lists numbers below half the range of a word. -/
lemma functionRun_lt (h : draft.Fits) : ∀ number ∈ draft.functionRun.2, number < 0x80000000 := by
  intro number hmem
  have hlt := placeAll_snd_lt (fun first f => show 1 ≤ (f.blocks first).length by
    simp [FunctionDraft.blocks]) number hmem
  have htable : draft.variableTableBlock + 1 + (placeAll FunctionDraft.blocks
      (draft.variableTableBlock + 1) draft.functions).1.length < 0x80000000 :=
    (tableBlocks_lt h).2
  omega

/-- Every variable has a number. -/
lemma length_variableRun (draft : Draft) :
    draft.variableRun.2.length = draft.variableTable.length :=
  length_placeAll_snd _ _ _

/-- Every function has a number. -/
lemma length_functionRun (draft : Draft) :
    draft.functionRun.2.length = draft.functions.length :=
  length_placeAll_snd _ _ _

/-- As many variables are found as were written. -/
lemma variableCount_encode (h : draft.Fits) :
    variableCount draft.encode = draft.variableTable.length := by
  rw [variableCount, read_variableTable h]

/-- The items of the variable table are the numbers of the entries. -/
lemma items_variableTable (h : draft.Fits) :
    items (Format.blocks draft.encode) (.read draft.encode 16) =
      draft.variableRun.2.map Int.ofNat := by
  rw [read_variableTable h, ← length_variableRun]
  exact items_indexBlock (layout_encode h).variableTable (variableRun_lt h)

/-- The items of the function table are the numbers of the entries. -/
lemma items_functionTable (h : draft.Fits) :
    items (Format.blocks draft.encode) (.read draft.encode 24) =
      draft.functionRun.2.map Int.ofNat := by
  rw [read_functionTable h, ← length_functionRun]
  exact items_indexBlock (layout_encode h).functionTable (functionRun_lt h)

/-- The buffers of a draft are read back. -/
lemma buffers_encode (h : draft.Fits) : Format.buffers draft.encode = draft.buffers := by
  rw [Format.buffers, read_buffers h, indices_indexBlock (layout_encode h).buffers h.buffers]

/-- The network inputs of a draft are read back. -/
lemma inputs_encode (h : draft.Fits) :
    indices (Format.blocks draft.encode) (.read draft.encode 32) = draft.inputs := by
  rw [read_inputs h, indices_indexBlock (layout_encode h).inputs h.inputs]

/-- The network outputs of a draft are read back. -/
lemma outputs_encode (h : draft.Fits) :
    indices (Format.blocks draft.encode) (.read draft.encode 40) = draft.outputs := by
  rw [read_outputs h, indices_indexBlock (layout_encode h).outputs h.outputs]

/-! ## Validity -/

/-- Every reference of a draft leads to what it needs. -/
structure Valid (draft : Draft) : Prop where
  inputs : ∀ index ∈ draft.inputs, index < draft.variableTable.length
  outputs : ∀ index ∈ draft.outputs, index < draft.variableTable.length
  variables_valid : ∀ v ∈ draft.variableTable, v.Valid draft.buffers
  functions_valid : ∀ f ∈ draft.functions, f.Valid draft.variableTable.length

/-- What holds of every number in a table, when it holds of each number as something else holds of
the thing that has it. -/
lemma forall_number_iff {α : Type} {xs : List α} {numbers : List Nat} {P : Int → Prop}
    {Q : α → Prop} (hlength : numbers.length = xs.length)
    (h : ∀ i (hi : i < xs.length),
      ∃ number : Nat, numbers[i]? = some number ∧ (P number ↔ Q xs[i])) :
    (∀ reference ∈ numbers.map Int.ofNat, P reference) ↔ ∀ x ∈ xs, Q x := by
  rw [List.forall_mem_map, List.forall_mem_iff_forall_getElem, List.forall_mem_iff_forall_getElem]
  constructor
  · intro hnumbers i hi
    obtain ⟨number, hnumber, hiff⟩ := h i hi
    obtain ⟨hi', rfl⟩ := List.getElem?_eq_some_iff.mp hnumber
    exact hiff.mp (hnumbers i hi')
  · intro hxs i hi
    obtain ⟨number, hnumber, hiff⟩ := h i (hlength ▸ hi)
    obtain ⟨_, rfl⟩ := List.getElem?_eq_some_iff.mp hnumber
    exact hiff.mpr (hxs i (hlength ▸ hi))

/-- A reference leads to an entry that is in order exactly when the entry that it leads to is. -/
lemma exists_named_iff {blocks : BlockContents} {number : Nat} {entry : Bytes}
    {P : Bytes → Prop} (hentry : blocks number = some entry) :
    (∃ found, named? blocks (number : Int) = some found ∧ P found) ↔ P entry := by
  rw [named?_natCast, hentry]
  constructor
  · rintro ⟨_, ⟨rfl⟩, hP⟩
    exact hP
  · exact fun hP => ⟨entry, rfl, hP⟩

/-- The variable entries in a draft's bytes are in order exactly when its variables are valid. -/
theorem variableEntries_encode_iff (h : draft.Fits) :
    (∀ reference ∈ items (Format.blocks draft.encode) (.read draft.encode 16),
      ∃ entry, named? (Format.blocks draft.encode) reference = some entry ∧
        VariableFits (Format.blocks draft.encode) (Format.buffers draft.encode) entry) ↔
      ∀ v ∈ draft.variableTable, v.Valid draft.buffers := by
  rw [items_variableTable h, buffers_encode h]
  apply forall_number_iff (length_variableRun draft)
  intro i hi
  obtain ⟨shapeBlock, number, hnumber, hplaced⟩ := exists_placed_variable h i hi
  refine ⟨number, hnumber, ?_⟩
  rw [exists_named_iff hplaced.entry, hplaced.variableFits_iff h.buffers]

/-- The function entries in a draft's bytes are in order exactly when its functions are valid. -/
theorem functionEntries_encode_iff (h : draft.Fits) :
    (∀ reference ∈ items (Format.blocks draft.encode) (.read draft.encode 24),
      ∃ entry, named? (Format.blocks draft.encode) reference = some entry ∧
        FunctionFits (Format.blocks draft.encode) (variableCount draft.encode) entry) ↔
      ∀ f ∈ draft.functions, f.Valid draft.variableTable.length := by
  rw [items_functionTable h, variableCount_encode h]
  apply forall_number_iff (length_functionRun draft)
  intro i hi
  obtain ⟨inputBlock, number, hnumber, hplaced⟩ := exists_placed_function h i hi
  refine ⟨number, hnumber, ?_⟩
  rw [exists_named_iff hplaced.entry, hplaced.functionFits_iff]

/-- **Validity**: the bytes of a draft are a descriptor exactly when the draft is valid.

**Proof sketch.** The bytes are always cut into blocks, and the lists and tables can be followed.
What is left of the format's conditions are the indices and the entries, and each of them is in
order when the part of the draft it was written from is. -/
theorem wellFormed_encode_iff (h : draft.Fits) : WellFormed draft.encode ↔ draft.Valid := by
  have hlayout := layout_encode h
  have hcount := variableCount_encode h
  have hinputsIff :=
    indicesFit_indexBlock_iff hlayout.inputs h.inputs draft.variableTable.length
  have houtputsIff :=
    indicesFit_indexBlock_iff hlayout.outputs h.outputs draft.variableTable.length
  rw [← read_inputs h, ← hcount] at hinputsIff
  rw [← read_outputs h, ← hcount] at houtputsIff
  constructor
  · intro hformed
    refine ⟨?_, ?_, ?_, ?_⟩
    · rw [← hcount]
      exact hinputsIff.mp hformed.inputs
    · rw [← hcount]
      exact houtputsIff.mp hformed.outputs
    · exact (variableEntries_encode_iff h).mp hformed.variableEntries
    · exact (functionEntries_encode_iff h).mp hformed.functionEntries
  · intro hvalid
    have hin := hvalid.inputs
    have hout := hvalid.outputs
    rw [← hcount] at hin hout
    refine ⟨framed_encode h, ?_, ?_, ?_, hinputsIff.mpr hin, houtputsIff.mpr hout, ?_, ?_⟩
    · rw [read_buffers h]
      exact countsFit_indexBlock hlayout.buffers h.buffers
    · rw [read_variableTable h, ← length_variableRun]
      exact listFits_indexBlock hlayout.variableTable
    · rw [read_functionTable h, ← length_functionRun]
      exact listFits_indexBlock hlayout.functionTable
    · exact (variableEntries_encode_iff h).mpr hvalid.variables_valid
    · exact (functionEntries_encode_iff h).mpr hvalid.functions_valid

end Draft

/-! ## What is read -/

/-- Where a variable that was read has its data: in the buffer that was written, or in a block
that starts with the bytes that were written. -/
def Backing.ReadAs (backing : Backing) (network : Network) (found : Variable) : Prop :=
  match backing with
  | .buffer index => found.storage = .buffer index
  | .data bytes => found.isParameter ∧
      network.parameterData? found = some (bytes.take found.byteSize)

/-- A variable that was read is the one that was written, at its place in the table. -/
structure VariableDraft.ReadAs (v : VariableDraft) (network : Network) (index : Nat)
    (found : Variable) : Prop where
  index_eq : found.index = index
  id_eq : found.id = v.id
  shape_eq : found.shape = ⟨v.dims⟩
  elementType_eq : found.elementType = v.elementType
  fixedPoint_eq : found.fixedPoint = v.fixedPoint
  data : v.backing.ReadAs network found
  role_eq : found.role = roleOf network.inputs network.outputs index found.storage

/-- The function that is read from where one was written. -/
def FunctionDraft.read (index : Nat) (f : FunctionDraft) : FunctionEntry where
  index := index
  op := f.op
  variant := f.variant
  inputs := f.inputs
  outputs := f.outputs
  parameters := f.parameters

namespace VariableDraft.Placed

variable {v : VariableDraft} {blocks : BlockContents} {buffers : List Nat}
  {shapeBlock number : Nat} {network : Network}

/-- The data of a variable that was written is found where its entry says. -/
lemma backing_readAs (h : v.Placed blocks shapeBlock number) (hfits : v.BackingFits buffers)
    (hblocks : network.blocks.block? = blocks) {found : Variable}
    (hshape : found.shape = ⟨v.dims⟩) (htype : found.elementType = v.elementType)
    (hstorage : found.storage = v.backing.storage shapeBlock) :
    v.backing.ReadAs network found := by
  rw [VariableDraft.BackingFits] at hfits
  cases hbacking : v.backing with
  | buffer index =>
    rw [hbacking] at hstorage
    exact hstorage
  | data bytes =>
    simp only [hbacking, Backing.storage] at hfits hstorage
    have hblock : network.blocks.block? (shapeBlock + 1) = some bytes := by
      rw [hblocks, h.data bytes hbacking]
    have hsize : found.byteSize ≤ bytes.length := by
      rw [Variable.byteSize, hshape, htype, Shape.byteSize, Shape.elementCount,
        Shape.product_eq_prod]
      exact hfits
    constructor
    · rw [Variable.isParameter, hstorage]
    · simp only [Network.parameterData?, hstorage, hblock]
      rw [if_pos hsize]

/-- A variable that was written is read as it was written. -/
lemma readAs (h : v.Placed blocks shapeBlock number) (hfits : v.BackingFits buffers)
    (hblocks : network.blocks.block? = blocks) (index : Nat) :
    v.ReadAs network index (variableAt blocks network.inputs network.outputs index
      (v.entry shapeBlock (v.backing.dataIndex shapeBlock))) := by
  rw [h.variableAt_eq]
  exact
    { index_eq := rfl
      id_eq := rfl
      shape_eq := rfl
      elementType_eq := rfl
      fixedPoint_eq := rfl
      data := h.backing_readAs hfits hblocks rfl rfl rfl
      role_eq := rfl }

end VariableDraft.Placed

namespace Draft

variable {draft : Draft}

/-- The tables of a network are those of a draft. -/
structure Reproduces (draft : Draft) (network : Network) : Prop where
  apiLevel : network.apiLevel = draft.apiLevel.toNat
  buffers : network.buffers = draft.buffers
  inputs : network.inputs = draft.inputs
  outputs : network.outputs = draft.outputs
  variableCount : network.variableTable.length = draft.variableTable.length
  variables_read : ∀ i (hi : i < draft.variableTable.length),
    ∃ found, network.variableTable[i]? = some found ∧
      draft.variableTable[i].ReadAs network i found
  functions : network.functions = draft.functions.mapIdx FunctionDraft.read

/-- A variable that was written is read where its data has its place. -/
lemma readAs_encode (h : draft.Fits) (i : Nat) (hi : i < draft.variableTable.length)
    (hvalid : draft.variableTable[i].Valid draft.buffers) :
    ∃ found, (network draft.encode).variableTable[i]? = some found ∧
      draft.variableTable[i].ReadAs (network draft.encode) i found := by
  obtain ⟨shapeBlock, number, hnumber, hplaced⟩ := exists_placed_variable h i hi
  set v := draft.variableTable[i]
  have hnamed : named (Format.blocks draft.encode) (number : Int) =
      v.entry shapeBlock (v.backing.dataIndex shapeBlock) :=
    named_eq ((named?_natCast _ _).trans hplaced.entry)
  have hfound : (network draft.encode).variableTable[i]? =
      some (variableAt (Format.blocks draft.encode) (network draft.encode).inputs
        (network draft.encode).outputs i (named (Format.blocks draft.encode) (number : Int))) := by
    rw [network_variableTable, List.getElem?_mapIdx, items_variableTable h, List.getElem?_map,
      hnumber]
    rfl
  rw [hnamed] at hfound
  refine ⟨_, hfound, hplaced.readAs hvalid.backing ?_ i⟩
  rw [network_blocks, block?_table (framed_encode h).offsets_within]

/-- The functions that were written are read. -/
lemma functions_encode (h : draft.Fits) :
    (network draft.encode).functions = draft.functions.mapIdx FunctionDraft.read := by
  apply List.ext_getElem?
  intro i
  simp only [network_functions, List.getElem?_mapIdx, items_functionTable h, List.getElem?_map,
    Option.map_map]
  rcases Nat.lt_or_ge i draft.functions.length with hi | hi
  · obtain ⟨inputBlock, number, hnumber, hplaced⟩ := exists_placed_function h i hi
    have hnamed : named (Format.blocks draft.encode) (number : Int) =
        draft.functions[i].entry inputBlock :=
      named_eq ((named?_natCast _ _).trans hplaced.entry)
    have hread : functionAt (Format.blocks draft.encode) i
        (named (Format.blocks draft.encode) (number : Int)) = draft.functions[i].read i := by
      rw [hnamed, hplaced.functionAt_eq (h.operators _ (List.getElem_mem hi))]
      rfl
    rw [hnumber, List.getElem?_eq_getElem hi]
    exact congrArg some hread
  · rw [List.getElem?_eq_none hi, List.getElem?_eq_none (by rwa [length_functionRun])]
    rfl

/-- A descriptor that was written is read as what was written. -/
theorem reproduces_encode (h : draft.Fits) (hvalid : draft.Valid) :
    draft.Reproduces (network draft.encode) where
  apiLevel := by
    rw [network_apiLevel, apiLevel_encode h]
  buffers := by rw [network_buffers, buffers_encode h]
  inputs := by rw [network_inputs, inputs_encode h]
  outputs := by rw [network_outputs, outputs_encode h]
  variableCount := by
    rw [network_variableTable, List.length_mapIdx, length_items, read_variableTable h]
  variables_read := fun i hi =>
    readAs_encode h i hi (hvalid.variables_valid _ (List.getElem_mem hi))
  functions := functions_encode h

/-- **Written drafts are read back**: if the numbers of a draft fit their words, its bytes are read
successfully exactly when the draft is valid, and whatever network is read then has the tables of
the draft.

**Proof sketch.** Reading succeeds on descriptors, with the tables at their documented places
(`Network.decode_eq_ok_iff`). The bytes of a draft are a descriptor exactly when it is valid
(`wellFormed_encode_iff`), and the tables at those places are the ones that were written
(`reproduces_encode`). -/
theorem decode_encode_ok_iff_valid (h : draft.Fits) :
    ((∃ network, Network.decode draft.encode = .ok network) ↔ draft.Valid) ∧
      ∀ network, Network.decode draft.encode = .ok network → draft.Reproduces network := by
  simp only [Network.decode_eq_ok_iff]
  constructor
  · rw [← wellFormed_encode_iff h]
    constructor
    · rintro ⟨_, hformed, _⟩
      exact hformed
    · exact fun hformed => ⟨_, hformed, rfl⟩
  · rintro _ ⟨hformed, rfl⟩
    exact reproduces_encode h ((wellFormed_encode_iff h).mp hformed)

/-- One layer with weights: the input and the output stand in buffers, and the weights, of one
byte each, are followed by a byte that does not belong to them. -/
def weightedLayer : Draft where
  buffers := [2, 3]
  variableTable :=
    [{ id := 7, dims := [1, 2], backing := .buffer 0 },
     { id := 8, dims := [2, 3], elementType := .fixed8, fixedPoint := 5,
       backing := .data [1, 2, 3, 4, 5, 6, 7] },
     { id := 9, dims := [3], backing := .buffer 1 }]
  functions := [{ op := .affine, inputs := [0, 1], outputs := [2], parameters := [1, 0, 0, 0] }]
  inputs := [0]
  outputs := [2]

/-- A layer with weights fits, is valid, and is read back. -/
theorem exists_decode_weightedLayer :
    weightedLayer.Fits ∧ weightedLayer.Valid ∧
      ∃ network, Network.decode weightedLayer.encode = .ok network ∧
        weightedLayer.Reproduces network := by
  have hfits : weightedLayer.Fits :=
    { buffers := by decide
      inputs := by decide
      outputs := by decide
      dims := by decide
      fixedPoints := by decide
      backings := by simp [weightedLayer]
      operators := by decide
      functionInputs := by decide
      functionOutputs := by decide
      blockCount := by decide
      dataSize := by decide }
  have hvalid : weightedLayer.Valid :=
    { inputs := by decide
      outputs := by decide
      variables_valid := by
        intro v hv
        simp only [weightedLayer, List.mem_cons, List.not_mem_nil, or_false] at hv
        rcases hv with rfl | rfl | rfl
        · exact ⟨by decide, 2, rfl, by decide⟩
        · exact ⟨by decide, show 6 * 1 ≤ 7 by decide⟩
        · exact ⟨by decide, 3, rfl, by decide⟩
      functions_valid := by
        intro f hf
        obtain rfl := List.mem_singleton.mp hf
        exact ⟨by decide, by decide, by decide, by simp⟩ }
  obtain ⟨hiff, hreproduces⟩ := decode_encode_ok_iff_valid hfits
  obtain ⟨network, hnetwork⟩ := hiff.mpr hvalid
  exact ⟨hfits, hvalid, network, hnetwork, hreproduces network hnetwork⟩

end Draft

end Inference
