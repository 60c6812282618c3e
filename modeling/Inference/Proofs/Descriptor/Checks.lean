import Inference.Proofs.Descriptor.Acceptance
import Inference.Proofs.FirstFault

set_option autoImplicit false
set_option relaxedAutoImplicit false

/-!
# The order of checks

A byte string can be wrong in many places at once. This file lists all that is checked about a
descriptor in one fixed order, over the words at their documented offsets and whatever the blocks
hold, with the fault of each check and its figures. Reading follows this list: the order goes across
tables, so that the network inputs are checked against the number of variables before any variable
is looked at.

## Main definitions

* `Format.headerChecks`, `Format.offsetChecks`, `Format.listChecks`, `Format.variableChecks`,
  `Format.functionChecks` — what is checked about each part.
* `Format.checks` — all that is checked about a byte string, in order.

## Main results

* `decodeVariable_follows`, `decodeFunction_follows`, `Header.decode_follows` — each part is checked
  in order.
* `Network.decode_follows` — the whole descriptor is.
* `allHold_checks_iff_wellFormed` — nothing is left out.
-/

namespace Inference

namespace Format

/-! ## What is checked -/

/-- The header is there, has the supported version, and declares sections that are there. -/
def headerChecks (bytes : Bytes) : List (Check DescriptorFault) :=
  [⟨56 ≤ bytes.length, .truncated .header 56 bytes.length⟩,
    ⟨bytes.word 0 4 = 2, .unsupportedVersion (bytes.word 0 4)⟩,
    ⟨dataStart bytes ≤ bytes.length,
      .truncated .offsetTable (dataStart bytes) bytes.length⟩,
    ⟨dataStart bytes + dataSize bytes ≤ bytes.length,
      .truncated .dataRegion (dataStart bytes + dataSize bytes) bytes.length⟩]

/-- A block starts inside the data region, and not before the block before it. -/
def offsetCheck (bytes : Bytes) (block : Nat) : Check DescriptorFault :=
  ⟨blockOffset bytes block ≤ dataSize bytes ∧
      (0 < block → blockOffset bytes (block - 1) ≤ blockOffset bytes block),
    .badBlockOffset block (blockOffset bytes block) (dataSize bytes)⟩

/-- So do all blocks. -/
def offsetChecks (bytes : Bytes) : List (Check DescriptorFault) :=
  (List.range (blockCount bytes)).map (offsetCheck bytes)

/-- An index lies below a count. -/
def indexCheck (what : Referent) (count : Nat) (index : Int) : Check DescriptorFault :=
  ⟨0 ≤ index ∧ index < count, .indexOutOfRange what index count⟩

section

variable (blocks : BlockContents) (count : Nat)

/-- A reference leads to one of `count` blocks, and this block has room for what it should hold. -/
def blockChecks (what : Referent) (reference : Int) (needed : Nat) :
    List (Check DescriptorFault) :=
  [indexCheck what count reference,
    ⟨needed ≤ (named blocks reference).length,
      .blockTooShort reference.toNat what needed (named blocks reference).length⟩]

/-- A list can be followed. Nothing is checked about an empty one. -/
def listChecks (what : Referent) (ref : ListRef) : List (Check DescriptorFault) :=
  if ref.count = 0 then [] else blockChecks blocks count what ref.block (4 * ref.count)

/-- A list can be followed, and its items lie below a bound. -/
def indicesChecks (list item : Referent) (bound : Nat) (ref : ListRef) :
    List (Check DescriptorFault) :=
  listChecks blocks count list ref ++ (items blocks ref).map (indexCheck item bound)

/-- A buffer has no negative element count. -/
def bufferCheck (buffer : Nat) (size : Int) : Check DescriptorFault :=
  ⟨0 ≤ size, .invalidBuffer buffer size⟩

/-- The list of buffers can be followed, and no element count is negative. -/
def bufferChecks (ref : ListRef) : List (Check DescriptorFault) :=
  listChecks blocks count .bufferTable ref ++ (items blocks ref).mapIdx bufferCheck

/-- A variable has no negative dimension. -/
def dimensionCheck (index : Nat) (dim : Int) : Check DescriptorFault :=
  ⟨0 ≤ dim, .invalidVariable index (.negativeDimension dim)⟩

/-- The list of dimensions of a variable can be followed, and none of them is negative. -/
def shapeChecks (index : Nat) (ref : ListRef) : List (Check DescriptorFault) :=
  listChecks blocks count .variableShape ref ++ (items blocks ref).map (dimensionCheck index)

/-- The type code of a variable is one of the four. -/
def typeCheck (index code : Nat) : Check DescriptorFault :=
  ⟨code ≤ 3, .invalidVariable index (.unknownElementType code)⟩

/-- The dimensions of a variable, multiplied from the left, and its bytes stay below the word
limit. -/
def sizeCheck (index : Nat) (dims : List Nat) (elementSize : Nat) : Check DescriptorFault :=
  ⟨(∀ k ≤ dims.length, (dims.take k).prod < wordLimit) ∧ dims.prod * elementSize < wordLimit,
    .invalidVariable index (.shapeOverflow ⟨dims⟩)⟩

/-- The place that a data index names is there, and large enough. -/
def dataChecks (buffers : List Nat) (index elements size : Nat) (dataIndex : Int) :
    List (Check DescriptorFault) :=
  if dataIndex < 0 then
    let buffer := (-dataIndex - 1).toNat
    let capacity := buffers[buffer]?.getD 0
    [indexCheck .buffer buffers.length (-dataIndex - 1),
      ⟨elements ≤ capacity, .invalidVariable index (.bufferTooSmall elements buffer capacity)⟩]
  else blockChecks blocks count .parameterData dataIndex size

/-- A variable entry: its block and its length, the list of its dimensions, none of which is
negative, its type code, its size in elements and bytes, and the place of its data. -/
def variableChecks (buffers : List Nat) (index : Nat) (reference : Int) :
    List (Check DescriptorFault) :=
  let entry := named blocks reference
  let elements := (dims blocks entry).prod
  let size := elements * elementSize (typeCode entry)
  blockChecks blocks count .variableEntry reference 20 ++
    shapeChecks blocks count index (.read entry 4) ++
    [typeCheck index (typeCode entry)] ++
    [sizeCheck index (dims blocks entry) (elementSize (typeCode entry))] ++
    dataChecks blocks count buffers index elements size (entry.signedWord 16)

/-- An output of a function is not listed before it, and is no input. -/
def outputChecks (index : Nat) (inputs outputs : List Nat) (position output : Nat) :
    List (Check DescriptorFault) :=
  [⟨output ∉ outputs.take position, .invalidNode index (.duplicateOutput output)⟩,
    ⟨output ∉ inputs, .invalidNode index (.aliasedOutput output)⟩]

/-- A function entry: its block and its length, its inputs, its outputs, and then each output. -/
def functionChecks (variableCount : Nat) (index : Nat) (reference : Int) :
    List (Check DescriptorFault) :=
  let entry := named blocks reference
  let inputs := indices blocks (.read entry 4)
  let outputs := indices blocks (.read entry 12)
  blockChecks blocks count .functionEntry reference 20 ++
    indicesChecks blocks count .functionInputs .functionInputVariable variableCount
      (.read entry 4) ++
    indicesChecks blocks count .functionOutputs .functionOutputVariable variableCount
      (.read entry 12) ++
    (outputs.mapIdx (outputChecks index inputs outputs)).flatten

end

/-- All that is checked about a byte string: the header and the sections, the block offsets, the
buffers, the list of variables, the network inputs and outputs, the variables in table order, the
list of functions, and the functions in table order. -/
def checks (bytes : Bytes) : List (Check DescriptorFault) :=
  let blocks := blocks bytes
  let count := blockCount bytes
  let variableCount := variableCount bytes
  headerChecks bytes ++ offsetChecks bytes ++
    bufferChecks blocks count (.read bytes 8) ++
    listChecks blocks count .variableTable (.read bytes 16) ++
    indicesChecks blocks count .networkInputs .networkInputVariable variableCount
      (.read bytes 32) ++
    indicesChecks blocks count .networkOutputs .networkOutputVariable variableCount
      (.read bytes 40) ++
    ((items blocks (.read bytes 16)).mapIdx
      (variableChecks blocks count (buffers bytes))).flatten ++
    listChecks blocks count .functionTable (.read bytes 24) ++
    ((items blocks (.read bytes 24)).mapIdx (functionChecks blocks count variableCount)).flatten

end Format

open Format

/-! ## References and lists -/

section

variable {table : BlockTable}

namespace BlockTable

/-- Numbers below the count name blocks, and no others do. -/
lemma named?_block?_eq_none_iff {reference : Int} :
    named? table.block? reference = none ↔ ¬(0 ≤ reference ∧ reference < table.count) := by
  unfold named?
  by_cases hneg : reference < 0
  · simp only [hneg, if_true, true_iff]
    omega
  · simp only [hneg, if_false, block?, Option.map_eq_none_iff, List.getElem?_eq_none_iff, count]
    omega

/-- A block is looked up by a number that is checked. -/
lemma get_follows (reference : Int) (what : Referent) :
    Follows (table.get reference what) [indexCheck what table.count reference]
      (reference.toNat, named table.block? reference) := by
  refine .single (fun hinside => ?_) fun houtside => ?_
  · obtain ⟨block, hblock⟩ : ∃ block, named? table.block? reference = some block := by
      rw [← Option.ne_none_iff_exists']
      exact fun hnone => named?_block?_eq_none_iff.mp hnone hinside
    rw [get_eq_ok_iff]
    exact ⟨by rw [named_eq hblock, hblock], rfl⟩
  · have hnone := named?_block?_eq_none_iff.mpr houtside
    unfold named? at hnone
    unfold get
    by_cases hneg : reference < 0
    · rw [if_pos hneg]
      rfl
    · rw [if_neg hneg] at hnone ⊢
      rw [hnone]
      rfl

/-- A block is looked up, and its length is checked next. -/
lemma get_follows_room {β : Type} {f : Nat × Bytes → Except DescriptorFault β}
    {rest : Except DescriptorFault β} {more : List (Check DescriptorFault)} {value : β}
    {reference : Int} {what : Referent} {needed : Nat}
    (hroom : f (reference.toNat, named table.block? reference) =
      if (named table.block? reference).length < needed then
        .error (.blockTooShort reference.toNat what needed (named table.block? reference).length)
      else rest)
    (hnext : needed ≤ (named table.block? reference).length → Follows rest more value) :
    Follows (table.get reference what >>= f)
      (blockChecks table.block? table.count what reference needed ++ more) value := by
  refine (get_follows reference what).bind fun _ => ?_
  rw [hroom]
  exact .refusal Nat.not_lt.symm fun hfits => hnext (Nat.not_lt.mp hfits)

/-- A list is checked before it is followed. -/
lemma signedList_follows (ref : ListRef) (what : Referent) :
    Follows (table.signedList ref what) (listChecks table.block? table.count what ref)
      (items table.block? ref) := by
  unfold listChecks
  by_cases hempty : ref.count = 0
  · rw [signedList, if_pos hempty, if_pos hempty, items, hempty]
    exact .pure _
  · have hchain : table.signedList ref what = table.get ref.block what >>= fun found =>
        if found.2.length < 4 * ref.count then
          .error (.blockTooShort found.1 what (4 * ref.count) found.2.length)
        else .ok (Bytes.signedWords (found.2.take (4 * ref.count))) := by
      unfold signedList
      rw [if_neg hempty]
      cases table.get ref.block what <;> rfl
    rw [hchain, if_neg hempty, ← List.append_nil (blockChecks _ _ _ _ _)]
    refine get_follows_room rfl fun hroom => ?_
    rw [Bytes.signedWords_take _ hroom]
    exact .pure _

end BlockTable

/-- An index is checked. -/
lemma checkIndex_follows (what : Referent) (count : Nat) (index : Int) :
    Follows (checkIndex what count index) [indexCheck what count index] index.toNat :=
  .single (fun hinside => if_pos hinside) fun houtside => if_neg houtside

/-- A count is checked, whatever its fault is. -/
lemma natural_follows {fault : DescriptorFault} (value : Int) :
    Follows (if value < 0 then .error fault else .ok value.toNat : Except DescriptorFault Nat)
      [⟨0 ≤ value, fault⟩] value.toNat :=
  .refusal Int.not_lt.symm fun _ => .pure _

/-- A list of indices is followed, and then its items are checked one by one. -/
lemma decodeIndices_follows (ref : ListRef) (list item : Referent) (bound : Nat) :
    Follows (decodeIndices table ref list item bound)
      (indicesChecks table.block? table.count list item bound ref) (indices table.block? ref) :=
  (BlockTable.signedList_follows ref list).bind fun _ =>
    .traverse_map fun _ index => checkIndex_follows item bound index

/-- The list of buffers is followed, and then the element counts are checked one by one. -/
lemma decodeBuffers_follows (ref : ListRef) :
    Follows (decodeBuffers table ref) (bufferChecks table.block? table.count ref)
      (indices table.block? ref) :=
  (BlockTable.signedList_follows ref .bufferTable).bind fun _ =>
    .traverse_single fun _ size => natural_follows size

/-! ## Variable entries -/

/-- The list of dimensions is followed, and then they are checked one by one. -/
lemma decodeShape_follows (index : Nat) (ref : ListRef) :
    Follows (decodeShape table index ref) (shapeChecks table.block? table.count index ref)
      ⟨indices table.block? ref⟩ :=
  (BlockTable.signedList_follows ref .variableShape).bind fun _ =>
    .map (.traverse_map fun _ dim => natural_follows dim)

/-- A type code is checked. -/
lemma ofCode?_follows (index code : Nat) :
    Follows (orFault (ElementType.ofCode? code) (.invalidVariable index (.unknownElementType code)))
      [typeCheck index code] ((ElementType.ofCode? code).getD .float) := by
  refine .single (fun hcode => ?_) fun hcode => ?_
  · obtain ⟨type, htype, -⟩ := ofCode?_eq_some hcode
    rw [htype]
    rfl
  · have hnone : ElementType.ofCode? code = none := by
      rw [Option.eq_none_iff_forall_ne_some]
      exact fun type htype => hcode (le_of_ofCode?_eq_some htype)
    rw [hnone]
    rfl

/-- The element size of a type code is that of its type. -/
lemma byteSize_getD_ofCode? {code : Nat} (h : code ≤ 3) :
    ((ElementType.ofCode? code).getD .float).byteSize = elementSize code := by
  obtain ⟨type, htype, hbytes⟩ := ofCode?_eq_some h
  rw [htype, Option.getD_some, hbytes]

/-- The size of a variable is checked. -/
lemma checkedCount_follows (index : Nat) (dims : List Nat) (type : ElementType) :
    Follows (checkedCount index ⟨dims⟩ type) [sizeCheck index dims type.byteSize] dims.prod := by
  refine .single (fun ⟨hprod, hsize⟩ => checkedCount_eq_ok_iff.mpr ⟨hprod, hsize, rfl⟩) ?_
  intro hover
  unfold checkedCount
  cases hcount : Shape.elementCount? ⟨dims⟩ with
  | none => rfl
  | some count =>
    obtain ⟨hprod, rfl⟩ := Shape.elementCount?_eq_some_iff.mp hcount
    exact if_neg fun hsize => hover ⟨hprod, hsize⟩

/-- The place of a variable's data is looked up, and then its size is checked. -/
lemma decodeStorage_follows (buffers : List Nat) (index elements size : Nat) (dataIndex : Int) :
    Follows (decodeStorage table buffers index elements size dataIndex)
      (dataChecks table.block? table.count buffers index elements size dataIndex)
      (storageOf dataIndex) := by
  unfold decodeStorage dataChecks storageOf
  by_cases hneg : dataIndex < 0
  · simp only [hneg, if_true]
    exact (checkIndex_follows .buffer _ _).bind fun _ => .refusal Nat.not_lt.symm fun _ => .pure _
  · simp only [hneg, if_false]
    rw [← List.append_nil (blockChecks _ _ _ _ _)]
    exact BlockTable.get_follows_room rfl fun _ => .pure _

/-- A variable entry is checked in order. -/
theorem decodeVariable_follows (buffers inputs outputs : List Nat) (index : Nat)
    (reference : Int) :
    Follows (decodeVariable table buffers inputs outputs index reference)
      (variableChecks table.block? table.count buffers index reference)
      (variableAt table.block? inputs outputs index (named table.block? reference)) := by
  unfold decodeVariable variableChecks
  simp only [List.append_assoc]
  refine BlockTable.get_follows_room rfl fun _ => ?_
  refine (decodeShape_follows index _).bind fun _ => ?_
  refine (ofCode?_follows index _).bind fun hcode => ?_
  rw [← byteSize_getD_ofCode? (by simpa [typeCheck, typeCode] using hcode)]
  refine (checkedCount_follows index _ _).bind fun _ => ?_
  rw [← List.append_nil (dataChecks _ _ _ _ _ _ _)]
  exact (decodeStorage_follows _ _ _ _ _).bind fun _ => .pure _

/-! ## Function entries -/

/-- Outputs are checked one by one, behind those that came earlier. -/
lemma aliasing?_follows {β : Type} (index : Nat) (inputs earlier outputs : List Nat) (value : β) :
    Follows ((aliasing? inputs earlier outputs).elim (.ok value) (.error <| .invalidNode index ·))
      (outputs.mapIdx fun position => outputChecks index inputs (earlier.reverse ++ outputs)
        (earlier.length + position)).flatten value := by
  induction outputs generalizing earlier with
  | nil => exact .pure value
  | cons output rest ih =>
    have hrest := ih (output :: earlier)
    simp only [List.reverse_cons, List.append_assoc, List.singleton_append, List.length_cons,
      Nat.add_assoc, Nat.add_comm 1] at hrest
    rw [aliasing?, List.mapIdx_cons, List.flatten_cons]
    exact .search (by simp) rfl fun _ => .search (by simp) rfl fun _ => hrest

/-- A function entry is checked in order. -/
theorem decodeFunction_follows (variableCount index : Nat) (reference : Int) :
    Follows (decodeFunction table variableCount index reference)
      (functionChecks table.block? table.count variableCount index reference)
      (functionAt table.block? index (named table.block? reference)) := by
  unfold decodeFunction functionChecks
  simp only [List.append_assoc]
  refine BlockTable.get_follows_room rfl fun _ => ?_
  refine (decodeIndices_follows _ _ _ _).bind fun _ => ?_
  refine (decodeIndices_follows _ _ _ _).bind fun _ => ?_
  have houtputs := aliasing?_follows index
    (indices table.block? (.read (named table.block? reference) 4)) []
    (indices table.block? (.read (named table.block? reference) 12))
    (functionAt table.block? index (named table.block? reference))
  simp only [List.reverse_nil, List.nil_append, List.length_nil, Nat.zero_add] at houtputs
  dsimp only
  cases hfault : aliasing? (indices table.block? (.read (named table.block? reference) 4)) []
      (indices table.block? (.read (named table.block? reference) 12)) <;>
    rw [hfault] at houtputs <;> exact houtputs

end

/-! ## Headers -/

/-- Offsets are checked one by one, from a block on whose predecessor is known. -/
lemma firstBadOffset?_follows {β : Type} (bytes : Bytes) (block count previous : Nat)
    (hprevious : ∀ offset, previous ≤ offset ↔ (0 < block → blockOffset bytes (block - 1) ≤ offset))
    (value : β) :
    Follows
      ((BlockTable.firstBadOffset? (dataSize bytes) block previous
          ((List.range' block count).map (blockOffset bytes))).elim (.ok value)
        fun bad => .error (.badBlockOffset bad.1 bad.2 (dataSize bytes)))
      ((List.range' block count).map (offsetCheck bytes)) value := by
  induction count generalizing block previous with
  | zero => exact .pure value
  | succ count ih =>
    rw [List.range'_succ, List.map_cons, List.map_cons, BlockTable.firstBadOffset?]
    refine .search ?_ rfl fun _ => ih (block + 1) (blockOffset bytes block) (by simp)
    rw [← hprevious, not_or, Nat.not_lt, Nat.not_lt]

/-- The offset table is checked offset by offset. -/
lemma ofOffsets_follows {bytes : Bytes}
    (hextent : dataStart bytes + dataSize bytes ≤ bytes.length) :
    Follows
      (BlockTable.ofOffsets (bytes.slice ⟨56, dataStart bytes⟩).words
        (bytes.slice ⟨dataStart bytes, dataStart bytes + dataSize bytes⟩))
      (offsetChecks bytes) (table bytes) := by
  have hlength :
      (bytes.slice ⟨dataStart bytes, dataStart bytes + dataSize bytes⟩).length =
        dataSize bytes := by
    rw [Bytes.length_slice hextent]
    exact Nat.add_sub_cancel_left _ _
  unfold BlockTable.ofOffsets offsetChecks
  rw [words_offsetTable (by omega), hlength, spansOf_offsets, List.range_eq_range']
  have hoffsets := firstBadOffset?_follows bytes 0 (blockCount bytes) 0 (by simp) (table bytes)
  cases hbad : BlockTable.firstBadOffset? (dataSize bytes) 0 0
      ((List.range' 0 (blockCount bytes)).map (blockOffset bytes)) <;>
    rw [hbad] at hoffsets <;> exact hoffsets

/-- The header is checked, then the sections, and then the blocks. -/
theorem Header.decode_follows (bytes : Bytes) :
    Follows (Header.decode bytes) (headerChecks bytes ++ offsetChecks bytes)
      (.read bytes, table bytes) := by
  unfold Header.decode
  refine .refusal Nat.not_lt.symm fun _ => ?_
  refine .refusal not_not.symm fun _ => ?_
  refine .refusal Nat.not_lt.symm fun _ => ?_
  refine .refusal Nat.not_lt.symm fun hextent => ?_
  exact .map (ofOffsets_follows (Nat.not_lt.mp hextent))

/-! ## Networks -/

/-- The table has as many blocks as the header says. -/
lemma count_table (bytes : Bytes) : (table bytes).count = blockCount bytes := by
  simp [BlockTable.count, table]

/-- The offset checks hold for all blocks, so their contents are those of the format. -/
lemma block?_table_of_allHold {bytes : Bytes} (h : AllHold (offsetChecks bytes)) :
    (table bytes).block? = blocks bytes := by
  refine block?_table fun block hblock => ?_
  exact (h (offsetCheck bytes block) (List.mem_map_of_mem (List.mem_range.mpr hblock))).1

/-- A byte string is checked in order, and gives the tables at their documented places if all checks
hold.

**Proof sketch.** Each part follows its own checks, and parts that are read one after another follow
their checks one after another. The blocks that the header leaves are those of the format, since the
offsets are checked before any block is used. -/
theorem Network.decode_follows (bytes : Bytes) :
    Follows (Network.decode bytes) (checks bytes) (Format.network bytes) := by
  unfold Network.decode checks Format.network Format.buffers
  simp only [List.append_assoc]
  rw [← List.append_assoc (headerChecks bytes)]
  refine (Header.decode_follows bytes).bind fun hheader => ?_
  rw [allHold_append] at hheader
  rw [← block?_table_of_allHold hheader.2, ← count_table]
  refine (decodeBuffers_follows _).bind fun _ => ?_
  refine (BlockTable.signedList_follows _ _).bind fun _ => ?_
  simp only [length_items]
  refine (decodeIndices_follows _ _ _ _).bind fun _ => ?_
  refine (decodeIndices_follows _ _ _ _).bind fun _ => ?_
  refine (Follows.traverse (decodeVariable_follows _ _ _)).bind fun _ => ?_
  refine (BlockTable.signedList_follows _ _).bind fun _ => ?_
  exact .map (.traverse (decodeFunction_follows _))

/-- Nothing is left out: all checks hold exactly for descriptors. -/
theorem allHold_checks_iff_wellFormed {bytes : Bytes} :
    AllHold (checks bytes) ↔ WellFormed bytes := by
  rw [← (Network.decode_follows bytes).exists_ok_iff]
  simp only [Network.decode_eq_ok_iff, exists_and_left, exists_eq, and_true]

end Inference
