import Inference.Proofs.Descriptor.Writing

set_option autoImplicit false
set_option relaxedAutoImplicit false

/-!
# Entries that were written

The entry of a variable or a function that was written is in order exactly when the variable or
the function is valid, and then it describes what was written.

## Main definitions

* `VariableDraft.Valid`, `FunctionDraft.Valid` — a variable or function whose references lead to
  what it needs.
* `VariableDraft.Placed`, `FunctionDraft.Placed` — the blocks of a variable or function stand among
  given blocks.

## Main results

* `VariableDraft.Placed.variableFits_iff`, `VariableDraft.Placed.variableAt_eq`
* `FunctionDraft.Placed.functionFits_iff`, `FunctionDraft.Placed.functionAt_eq`
-/

namespace Inference

open Format

/-! ## Variables -/

/-- The data index that a variable is written with. -/
def Backing.dataIndex (shapeBlock : Nat) : Backing → Int
  | .buffer index => -(index : Int) - 1
  | .data _ => (shapeBlock + 1 : Nat)

/-- Where a variable that was written has its data. -/
def Backing.storage (shapeBlock : Nat) : Backing → Storage
  | .buffer index => .buffer index
  | .data _ => .parameter (shapeBlock + 1)

/-- The place that a written data index names. -/
lemma storageOf_dataIndex (backing : Backing) (shapeBlock : Nat) :
    storageOf (backing.dataIndex shapeBlock) = backing.storage shapeBlock := by
  cases backing with
  | buffer buffer =>
    rw [Backing.dataIndex, Backing.storage, storageOf, if_pos (by omega),
      show (-(-(buffer : Int) - 1) - 1).toNat = buffer by omega]
  | data bytes =>
    rw [Backing.dataIndex, Backing.storage, storageOf, if_neg (by omega), Int.toNat_natCast]

namespace VariableDraft

/-- What a variable asks of the place of its data: the buffer exists and has room for its
elements, or there are enough bytes. -/
def BackingFits (v : VariableDraft) (buffers : List Nat) : Prop :=
  match v.backing with
  | .buffer buffer => ∃ capacity, buffers[buffer]? = some capacity ∧ v.dims.prod ≤ capacity
  | .data bytes => v.dims.prod * v.elementType.byteSize ≤ bytes.length

/-- A variable whose elements can be counted and whose data has its place. -/
structure Valid (v : VariableDraft) (buffers : List Nat) : Prop where
  /-- The dimensions multiplied from the left stay below the word limit at every step. -/
  products : ∀ k ≤ v.dims.length, (v.dims.take k).prod < wordLimit
  backing : v.BackingFits buffers

/-- The blocks of a variable stand among given blocks, and its numbers fit their words. -/
structure Placed (v : VariableDraft) (blocks : BlockContents) (shapeBlock number : Nat) :
    Prop where
  shape : blocks shapeBlock = some (indexBlock v.dims)
  data : ∀ bytes, v.backing = .data bytes → blocks (shapeBlock + 1) = some bytes
  entry : blocks number = some (v.entry shapeBlock (v.backing.dataIndex shapeBlock))
  rank_lt : v.dims.length < 0x100000000
  dims_lt : ∀ dim ∈ v.dims, dim < 0x80000000
  fixedPoint_lt : v.fixedPoint < 16
  buffer_lt : ∀ buffer, v.backing = .buffer buffer → buffer < 0x80000000
  bytes_lt : ∀ bytes, v.backing = .data bytes → bytes.length < 0x100000000
  shapeBlock_lt : shapeBlock + 1 < 0x80000000

/-- Every variable has a shape block and an entry. -/
lemma length_blocks (first : Nat) (v : VariableDraft) : 2 ≤ (v.blocks first).length := by
  unfold blocks
  cases v.backing <;> simp

/-- Where the blocks of a variable stand: the shape first, then the data, and the entry last. -/
lemma of_holdsFrom {v : VariableDraft} {blocks : BlockContents} {first : Nat}
    (h : HoldsFrom blocks first (v.blocks first)) :
    blocks first = some (indexBlock v.dims) ∧
      (∀ bytes, v.backing = .data bytes → blocks (first + 1) = some bytes) ∧
      blocks (first + (v.blocks first).length - 1) =
        some (v.entry first (v.backing.dataIndex first)) := by
  unfold VariableDraft.blocks at h ⊢
  cases hbacking : v.backing with
  | buffer buffer =>
    simp only [hbacking] at h
    exact ⟨h 0 (by simp), by simp, h 1 (by simp)⟩
  | data bytes =>
    simp only [hbacking] at h
    refine ⟨h 0 (by simp), ?_, h 2 (by simp)⟩
    rintro _ ⟨rfl⟩
    exact h 1 (by simp)

section

variable {v : VariableDraft}

/-- A variable entry takes twenty bytes. -/
@[simp]
lemma length_entry (v : VariableDraft) (shapeBlock : Nat) (dataIndex : Int) :
    (v.entry shapeBlock dataIndex).length = 20 := by
  simp [entry, Bytes.ofInt32]

/-- The number of a variable is read back. -/
lemma word_entry_id (v : VariableDraft) (shapeBlock : Nat) (dataIndex : Int) :
    Bytes.word (v.entry shapeBlock dataIndex) 0 4 = v.id.toNat := by
  have hid : v.id.toNat < Bytes.capacity 4 := v.id.toNat_lt
  rw [entry, List.append_assoc, List.append_assoc]
  exact Bytes.word_ofNatLE hid _

/-- The shape list of a variable is read back. -/
lemma read_entry_shape {shapeBlock : Nat} (hrank : v.dims.length < 0x100000000)
    (hblock : shapeBlock < 0x80000000) (dataIndex : Int) :
    ListRef.read (v.entry shapeBlock dataIndex) 4 = ⟨v.dims.length, shapeBlock⟩ := by
  rw [entry, List.append_assoc, List.append_assoc, ListRef.read_append_right _ (by simp),
    Bytes.length_ofNatLE]
  exact ListRef.read_listRefBytes hrank hblock _

/-- The type word of a variable is read back. -/
lemma word_entry_type (v : VariableDraft) (shapeBlock : Nat) (dataIndex : Int) :
    Bytes.word (v.entry shapeBlock dataIndex) 12 4 = typeWord v.elementType v.fixedPoint := by
  have hcode : v.elementType.code ≤ 3 := by cases v.elementType <;> decide
  have hfits : typeWord v.elementType v.fixedPoint < Bytes.capacity 4 := by
    rw [Bytes.capacity_four, typeWord]
    omega
  rw [entry, List.append_assoc, Bytes.word_append_right _ (by simp), List.length_append,
    Bytes.length_ofNatLE, length_listRefBytes]
  exact Bytes.word_ofNatLE hfits _

/-- The data index of a variable is read back. -/
lemma signedWord_entry_data (v : VariableDraft) (shapeBlock : Nat) {dataIndex : Int}
    (hlow : -0x80000000 ≤ dataIndex) (hhigh : dataIndex < 0x80000000) :
    Bytes.signedWord (v.entry shapeBlock dataIndex) 16 = dataIndex := by
  have hback := Bytes.signedWord_ofInt32 hlow hhigh []
  rw [List.append_nil] at hback
  rw [entry, Bytes.signedWord, Bytes.word_append_right _ (by simp)]
  simpa [Bytes.signedWord] using hback

/-- The low four bits of a type word are the code of the type. -/
lemma typeWord_mod (type : ElementType) (fixedPoint : Nat) :
    typeWord type fixedPoint % 16 = type.code := by
  have hcode : type.code ≤ 3 := by cases type <;> decide
  rw [typeWord]
  omega

/-- The type code of a variable is read back. -/
lemma typeCode_entry (v : VariableDraft) (shapeBlock : Nat) (dataIndex : Int) :
    typeCode (v.entry shapeBlock dataIndex) = v.elementType.code := by
  rw [typeCode, word_entry_type, typeWord_mod]

/-- The next four bits of a type word are the binary point. -/
lemma typeWord_div (type : ElementType) {fixedPoint : Nat} (h : fixedPoint < 16) :
    typeWord type fixedPoint / 16 % 16 = fixedPoint := by
  have hcode : type.code ≤ 3 := by cases type <;> decide
  rw [typeWord]
  omega

end

/-- Bytes per element, by the type or by its code. -/
lemma elementSize_code (type : ElementType) : elementSize type.code = type.byteSize := by
  cases type <;> rfl

namespace Placed

variable {v : VariableDraft} {blocks : BlockContents} {buffers : List Nat}
  {shapeBlock number : Nat}

/-- The data index of a variable fits a signed word. -/
lemma dataIndex_mem (h : v.Placed blocks shapeBlock number) :
    -0x80000000 ≤ v.backing.dataIndex shapeBlock ∧
      v.backing.dataIndex shapeBlock < 0x80000000 := by
  have hblock := h.shapeBlock_lt
  cases hbacking : v.backing with
  | buffer buffer =>
    have hbuffer := h.buffer_lt buffer hbacking
    rw [Backing.dataIndex]
    omega
  | data bytes =>
    rw [Backing.dataIndex]
    omega

/-- The dimensions of a variable are read back. -/
lemma dims_eq (h : v.Placed blocks shapeBlock number) :
    Format.dims blocks (v.entry shapeBlock (v.backing.dataIndex shapeBlock)) = v.dims := by
  have hblock := h.shapeBlock_lt
  rw [Format.dims, read_entry_shape h.rank_lt (by omega), indices_indexBlock h.shape h.dims_lt]

/-- The written data index leads to what the variable asks for. -/
lemma dataFits_iff (h : v.Placed blocks shapeBlock number) :
    DataFits blocks buffers v.dims.prod (v.dims.prod * v.elementType.byteSize)
        (v.backing.dataIndex shapeBlock) ↔ v.BackingFits buffers := by
  rw [BackingFits]
  cases hbacking : v.backing with
  | buffer buffer =>
    have hneg : -(buffer : Int) - 1 < 0 := by omega
    have hback : (-(-(buffer : Int) - 1) - 1).toNat = buffer := by omega
    constructor
    · intro hfits
      have hbuffer := hfits.buffer hneg
      rwa [Backing.dataIndex, hback] at hbuffer
    · intro hbuffer
      refine ⟨fun _ => ?_, fun hpos => absurd hneg (Int.not_lt.mpr hpos)⟩
      simpa only [Backing.dataIndex, hback] using hbuffer
  | data bytes =>
    have hpos : (0 : Int) ≤ (shapeBlock + 1 : Nat) := Int.natCast_nonneg _
    constructor
    · intro hfits
      obtain ⟨found, hfound, hle⟩ := hfits.block hpos
      rw [Backing.dataIndex, Int.toNat_natCast, h.data bytes hbacking] at hfound
      cases hfound
      exact hle
    · intro hle
      refine ⟨fun hneg => absurd hpos (Int.not_le.mpr hneg), fun _ => ⟨bytes, ?_, hle⟩⟩
      rw [Backing.dataIndex, Int.toNat_natCast, h.data bytes hbacking]

/-- The bytes of a variable whose data has its place can be counted in a word. -/
lemma size_lt (h : v.Placed blocks shapeBlock number)
    (hbuffers : ∀ size ∈ buffers, size < 0x80000000) (hfits : v.BackingFits buffers) :
    v.dims.prod * v.elementType.byteSize < wordLimit := by
  rw [BackingFits] at hfits
  cases hbacking : v.backing with
  | buffer buffer =>
    simp only [hbacking] at hfits
    obtain ⟨capacity, hcapacity, hle⟩ := hfits
    have hsmall := hbuffers capacity (List.mem_of_getElem? hcapacity)
    cases v.elementType <;> simp only [ElementType.byteSize, wordLimit] <;> omega
  | data bytes =>
    simp only [hbacking] at hfits
    have hsmall := h.bytes_lt bytes hbacking
    rw [wordLimit]
    omega

/-- The entry of a variable is in order exactly when the variable is valid. -/
theorem variableFits_iff (h : v.Placed blocks shapeBlock number)
    (hbuffers : ∀ size ∈ buffers, size < 0x80000000) :
    VariableFits blocks buffers (v.entry shapeBlock (v.backing.dataIndex shapeBlock)) ↔
      v.Valid buffers := by
  obtain ⟨hlow, hhigh⟩ := h.dataIndex_mem
  have hblock := h.shapeBlock_lt
  have hdata := signedWord_entry_data v shapeBlock hlow hhigh
  constructor
  · intro hfits
    have hplace := hfits.data
    rw [h.dims_eq, typeCode_entry, elementSize_code, hdata] at hplace
    refine ⟨?_, h.dataFits_iff.mp hplace⟩
    simpa only [h.dims_eq] using hfits.products
  · intro hvalid
    have hsize := h.size_lt hbuffers hvalid.backing
    refine ⟨by simp, ?_, ?_, ?_, ?_, ?_⟩
    · rw [read_entry_shape h.rank_lt (by omega)]
      exact countsFit_indexBlock h.shape h.dims_lt
    · rw [typeCode_entry]
      cases v.elementType <;> decide
    · rw [h.dims_eq]
      exact hvalid.products
    · rwa [h.dims_eq, typeCode_entry, elementSize_code]
    · rw [h.dims_eq, typeCode_entry, elementSize_code, hdata]
      exact h.dataFits_iff.mpr hvalid.backing

/-- The entry of a variable describes what was written. -/
theorem variableAt_eq (h : v.Placed blocks shapeBlock number) (inputs outputs : List Nat)
    (index : Nat) :
    variableAt blocks inputs outputs index
        (v.entry shapeBlock (v.backing.dataIndex shapeBlock)) =
      { index := index
        id := v.id
        shape := ⟨v.dims⟩
        elementType := v.elementType
        fixedPoint := v.fixedPoint
        storage := v.backing.storage shapeBlock
        role := roleOf inputs outputs index (v.backing.storage shapeBlock) } := by
  obtain ⟨hlow, hhigh⟩ := h.dataIndex_mem
  have htype : ElementType.ofCode? (typeCode (v.entry shapeBlock
      (v.backing.dataIndex shapeBlock))) = some v.elementType := by
    rw [typeCode_entry, ElementType.ofCode?_eq_some_iff]
  rw [Inference.variableAt_eq htype, word_entry_id, UInt32.ofNat_toNat, h.dims_eq, word_entry_type,
    typeWord_div _ h.fixedPoint_lt, signedWord_entry_data v shapeBlock hlow hhigh,
    storageOf_dataIndex]

end Placed

end VariableDraft

/-! ## Functions -/

namespace FunctionDraft

/-- A function whose variables exist, with outputs that are distinct and no inputs. -/
structure Valid (f : FunctionDraft) (variableCount : Nat) : Prop where
  inputs : ∀ index ∈ f.inputs, index < variableCount
  outputs : ∀ index ∈ f.outputs, index < variableCount
  distinct : f.outputs.Nodup
  disjoint : f.inputs.Disjoint f.outputs

/-- The entry of a function whose input list is block `inputBlock`. -/
def entry (f : FunctionDraft) (inputBlock : Nat) : Bytes :=
  Bytes.ofNatLE 2 f.op.code.toNat ++ Bytes.ofNatLE 2 f.variant.toNat ++
    listRefBytes f.inputs.length inputBlock ++ listRefBytes f.outputs.length (inputBlock + 1) ++
    f.parameters

/-- The blocks of a function stand among given blocks, and its numbers fit their words. -/
structure Placed (f : FunctionDraft) (blocks : BlockContents) (inputBlock number : Nat) :
    Prop where
  inputs : blocks inputBlock = some (indexBlock f.inputs)
  outputs : blocks (inputBlock + 1) = some (indexBlock f.outputs)
  entry : blocks number = some (f.entry inputBlock)
  inputs_length_lt : f.inputs.length < 0x100000000
  outputs_length_lt : f.outputs.length < 0x100000000
  inputs_lt : ∀ index ∈ f.inputs, index < 0x80000000
  outputs_lt : ∀ index ∈ f.outputs, index < 0x80000000
  inputBlock_lt : inputBlock + 1 < 0x80000000

/-- Where the blocks of a function stand: the inputs first, then the outputs, and the entry
last. -/
lemma of_holdsFrom {f : FunctionDraft} {blocks : BlockContents} {first : Nat}
    (h : HoldsFrom blocks first (f.blocks first)) :
    blocks first = some (indexBlock f.inputs) ∧
      blocks (first + 1) = some (indexBlock f.outputs) ∧
      blocks (first + (f.blocks first).length - 1) = some (f.entry first) :=
  ⟨h 0 (by simp [FunctionDraft.blocks]), h 1 (by simp [FunctionDraft.blocks]),
    h 2 (by simp [FunctionDraft.blocks])⟩

/-- A function entry takes twenty bytes and those of the operator. -/
lemma length_entry (f : FunctionDraft) (inputBlock : Nat) :
    (f.entry inputBlock).length = 20 + f.parameters.length := by
  simp only [entry, List.length_append, Bytes.length_ofNatLE, length_listRefBytes]

/-- The operator of a function is read back. -/
lemma word_entry_op (f : FunctionDraft) (inputBlock : Nat) :
    Bytes.word (f.entry inputBlock) 0 2 = f.op.code.toNat := by
  have hop : f.op.code.toNat < Bytes.capacity 2 := f.op.code.toNat_lt
  simp only [entry, List.append_assoc]
  exact Bytes.word_ofNatLE hop _

/-- The variant of a function is read back. -/
lemma word_entry_variant (f : FunctionDraft) (inputBlock : Nat) :
    Bytes.word (f.entry inputBlock) 2 2 = f.variant.toNat := by
  have hvariant : f.variant.toNat < Bytes.capacity 2 := f.variant.toNat_lt
  simp only [entry, List.append_assoc]
  rw [Bytes.word_append_right _ (by simp), Bytes.length_ofNatLE]
  exact Bytes.word_ofNatLE hvariant _

/-- The operator's own bytes stand at the end of its entry. -/
lemma drop_entry (f : FunctionDraft) (inputBlock : Nat) :
    (f.entry inputBlock).drop 20 = f.parameters := by
  rw [entry, List.drop_append_of_le_length (by simp), List.drop_eq_nil_of_le (by simp),
    List.nil_append]

namespace Placed

variable {f : FunctionDraft} {blocks : BlockContents} {inputBlock number : Nat}

/-- The input list of a function is read back. -/
lemma read_inputs (h : f.Placed blocks inputBlock number) :
    ListRef.read (f.entry inputBlock) 4 = ⟨f.inputs.length, inputBlock⟩ := by
  have hblock := h.inputBlock_lt
  simp only [FunctionDraft.entry, List.append_assoc]
  rw [ListRef.read_append_right _ (by simp), Bytes.length_ofNatLE,
    ListRef.read_append_right _ (by simp), Bytes.length_ofNatLE]
  exact ListRef.read_listRefBytes h.inputs_length_lt (by omega) _

/-- The output list of a function is read back. -/
lemma read_outputs (h : f.Placed blocks inputBlock number) :
    ListRef.read (f.entry inputBlock) 12 = ⟨f.outputs.length, (inputBlock + 1 : Nat)⟩ := by
  simp only [FunctionDraft.entry, List.append_assoc]
  rw [ListRef.read_append_right _ (by simp), Bytes.length_ofNatLE,
    ListRef.read_append_right _ (by simp), Bytes.length_ofNatLE,
    ListRef.read_append_right _ (by simp), length_listRefBytes]
  exact ListRef.read_listRefBytes h.outputs_length_lt h.inputBlock_lt _

/-- The inputs of a function are read back. -/
lemma indices_inputs (h : f.Placed blocks inputBlock number) :
    indices blocks (.read (f.entry inputBlock) 4) = f.inputs := by
  rw [h.read_inputs, indices_indexBlock h.inputs h.inputs_lt]

/-- The outputs of a function are read back. -/
lemma indices_outputs (h : f.Placed blocks inputBlock number) :
    indices blocks (.read (f.entry inputBlock) 12) = f.outputs := by
  rw [h.read_outputs, indices_indexBlock h.outputs h.outputs_lt]

/-- The entry of a function is in order exactly when the function is valid. -/
theorem functionFits_iff (h : f.Placed blocks inputBlock number) (variableCount : Nat) :
    FunctionFits blocks variableCount (f.entry inputBlock) ↔ f.Valid variableCount := by
  have hinputs := indicesFit_indexBlock_iff h.inputs h.inputs_lt variableCount
  have houtputs := indicesFit_indexBlock_iff h.outputs h.outputs_lt variableCount
  rw [← h.read_inputs] at hinputs
  rw [← h.read_outputs] at houtputs
  constructor
  · intro hfits
    refine ⟨hinputs.mp hfits.inputs, houtputs.mp hfits.outputs, ?_, ?_⟩
    · simpa only [h.indices_outputs] using hfits.distinct
    · simpa only [h.indices_inputs, h.indices_outputs] using hfits.disjoint
  · intro hvalid
    refine ⟨?_, hinputs.mpr hvalid.inputs, houtputs.mpr hvalid.outputs, ?_, ?_⟩
    · rw [length_entry]
      omega
    · rw [h.indices_outputs]
      exact hvalid.distinct
    · rw [h.indices_inputs, h.indices_outputs]
      exact hvalid.disjoint

/-- The entry of a function describes what was written, if the operator is the one of its code. -/
theorem functionAt_eq (h : f.Placed blocks inputBlock number) (hop : f.op = .ofCode f.op.code)
    (index : Nat) :
    functionAt blocks index (f.entry inputBlock) =
      { index := index
        op := f.op
        variant := f.variant
        inputs := f.inputs
        outputs := f.outputs
        parameters := f.parameters } := by
  rw [functionAt, word_entry_op, word_entry_variant, h.indices_inputs, h.indices_outputs,
    drop_entry, UInt16.ofNat_toNat, UInt16.ofNat_toNat, ← hop]

end Placed

end FunctionDraft

end Inference
