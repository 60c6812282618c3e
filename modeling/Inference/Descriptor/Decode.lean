import Inference.Descriptor.Network
import Inference.Traverse

set_option autoImplicit false
set_option relaxedAutoImplicit false

/-!
# Reading descriptors

A descriptor is a header of 56 bytes, a table of block offsets and a data region; all words are
little-endian. Bytes after the data region are ignored.

    offset  field
    0       version               word
    4       api level             word
    8       buffers               list of element counts
    16      variables             list of entry blocks
    24      functions             list of entry blocks
    32      network inputs        list of variables
    40      network outputs       list of variables
    48      block count           word
    52      data size             word
    56      block offsets         one word per block
            data region

A variable entry has an id, a shape list, a type word and a data index: a block that holds the
initial data, or, when negative, a buffer counted down from -1. A function entry has an operator,
a variant, an input list, an output list, and the operator's own bytes.

Every reference is checked here, so the tables can be used without further checks.

## Main definitions

* `Header` — the fixed part.
* `Network.decode` — the tables of a descriptor, or its first fault.
-/

namespace Inference

/-! ## Header -/

/-- The fixed part of a descriptor. -/
structure Header where
  version : Nat
  apiLevel : Nat
  buffers : ListRef
  variableTable : ListRef
  functions : ListRef
  inputs : ListRef
  outputs : ListRef
  blockCount : Nat
  dataSize : Nat
deriving DecidableEq

namespace Header

/-- Bytes of the fixed part. -/
def byteSize : Nat := 56

/-- The fields of the fixed part. -/
def read (bytes : Bytes) : Header where
  version := bytes.word 0 4
  apiLevel := bytes.word 4 4
  buffers := .read bytes 8
  variableTable := .read bytes 16
  functions := .read bytes 24
  inputs := .read bytes 32
  outputs := .read bytes 40
  blockCount := bytes.word 48 4
  dataSize := bytes.word 52 4

/-- Where the table of block offsets ends and the data region starts. -/
def tableEnd (header : Header) : Nat :=
  byteSize + 4 * header.blockCount

/-- Where the data region ends. -/
def dataEnd (header : Header) : Nat :=
  header.tableEnd + header.dataSize

/-- The header of a descriptor and the blocks of its data region. -/
def decode (bytes : Bytes) : Except DescriptorFault (Header × BlockTable) :=
  if bytes.length < byteSize then .error (.truncated .header byteSize bytes.length)
  else
    let header := read bytes
    if header.version ≠ descriptorVersion then .error (.unsupportedVersion header.version)
    else if bytes.length < header.tableEnd then
      .error (.truncated .offsetTable header.tableEnd bytes.length)
    else if bytes.length < header.dataEnd then
      .error (.truncated .dataRegion header.dataEnd bytes.length)
    else
      let offsets := (bytes.slice ⟨byteSize, header.tableEnd⟩).words
      let data := bytes.slice ⟨header.tableEnd, header.dataEnd⟩
      (BlockTable.ofOffsets offsets data).map (header, ·)

end Header

/-! ## Entries -/

/-- Bytes of a variable entry. -/
def variableEntrySize : Nat := 20

/-- Bytes of a function entry before the operator's own. -/
def functionHeadSize : Nat := 20

/-- An index that must lie below a count. -/
def checkIndex (what : Referent) (count : Nat) (index : Int) : Except DescriptorFault Nat :=
  if 0 ≤ index ∧ index < count then .ok index.toNat
  else .error (.indexOutOfRange what index count)

/-- A list of indices that must lie below a count. -/
def decodeIndices (blocks : BlockTable) (ref : ListRef) (list item : Referent) (count : Nat) :
    Except DescriptorFault (List Nat) := do
  let raw ← blocks.signedList ref list
  traverse (fun _ index => checkIndex item count index) raw

/-- The element counts of the buffers. -/
def decodeBuffers (blocks : BlockTable) (ref : ListRef) : Except DescriptorFault (List Nat) := do
  let raw ← blocks.signedList ref .bufferTable
  traverse (fun i size => if size < 0 then .error (.invalidBuffer i size) else .ok size.toNat) raw

/-- The dimensions of variable `index`. -/
def decodeShape (blocks : BlockTable) (index : Nat) (ref : ListRef) :
    Except DescriptorFault Shape := do
  let raw ← blocks.signedList ref .variableShape
  let dims ← traverse (fun _ dim =>
    if dim < 0 then .error (.invalidVariable index (.negativeDimension dim)) else .ok dim.toNat) raw
  return ⟨dims⟩

/-- The element count of variable `index`, whose bytes must be countable in a word. -/
def checkedCount (index : Nat) (shape : Shape) (type : ElementType) :
    Except DescriptorFault Nat :=
  match shape.elementCount? with
  | none => .error (.invalidVariable index (.shapeOverflow shape))
  | some count =>
    if count * type.byteSize < wordLimit then .ok count
    else .error (.invalidVariable index (.shapeOverflow shape))

/-- The place that the data index of variable `index` names, which must be large enough. -/
def decodeStorage (blocks : BlockTable) (buffers : List Nat) (index count byteSize : Nat)
    (dataIndex : Int) : Except DescriptorFault Storage :=
  if dataIndex < 0 then do
    let buffer ← checkIndex .buffer buffers.length (-dataIndex - 1)
    let capacity := buffers[buffer]?.getD 0
    if capacity < count then
      .error (.invalidVariable index (.bufferTooSmall count buffer capacity))
    else .ok (.buffer buffer)
  else do
    let (block, data) ← blocks.get dataIndex .parameterData
    if data.length < byteSize then
      .error (.blockTooShort block .parameterData byteSize data.length)
    else .ok (.parameter block)

/-- What a network does with a variable: being listed as an input comes first, then being listed
as an output, then having initial data. -/
def roleOf (inputs outputs : List Nat) (index : Nat) (storage : Storage) : Role :=
  if inputs.contains index then .input
  else if outputs.contains index then .output
  else
    match storage with
    | .parameter _ => .parameter
    | .buffer _ => .intermediate

/-- The variable whose entry is the block with a given number. -/
def decodeVariable (blocks : BlockTable) (buffers inputs outputs : List Nat) (index : Nat)
    (block : Int) : Except DescriptorFault Variable := do
  let (number, entry) ← blocks.get block .variableEntry
  if entry.length < variableEntrySize then
    throw (.blockTooShort number .variableEntry variableEntrySize entry.length)
  let shape ← decodeShape blocks index (.read entry 4)
  let typeWord := entry.word 12 4
  let type ← orFault (ElementType.ofCode? (typeWord % 16))
    (.invalidVariable index (.unknownElementType (typeWord % 16)))
  let count ← checkedCount index shape type
  let storage ← decodeStorage blocks buffers index count (count * type.byteSize)
    (entry.signedWord 16)
  return {
    index
    id := UInt32.ofNat (entry.word 0 4)
    shape
    elementType := type
    fixedPoint := typeWord / 16 % 16
    storage
    role := roleOf inputs outputs index storage }

/-- Outputs are written while inputs are read, so no variable may be listed twice as an output or
both as an input and as an output. The first output that breaks this is named. -/
def aliasing? (inputs : List Nat) (earlier : List Nat) : List Nat → Option NodeFault
  | [] => none
  | output :: rest =>
    if earlier.contains output then some (.duplicateOutput output)
    else if inputs.contains output then some (.aliasedOutput output)
    else aliasing? inputs (output :: earlier) rest

/-- The function whose entry is the block with a given number. -/
def decodeFunction (blocks : BlockTable) (variableCount index : Nat) (block : Int) :
    Except DescriptorFault FunctionEntry := do
  let (number, entry) ← blocks.get block .functionEntry
  if entry.length < functionHeadSize then
    throw (.blockTooShort number .functionEntry functionHeadSize entry.length)
  let inputs ← decodeIndices blocks (.read entry 4) .functionInputs .functionInputVariable
    variableCount
  let outputs ← decodeIndices blocks (.read entry 12) .functionOutputs .functionOutputVariable
    variableCount
  match aliasing? inputs [] outputs with
  | some fault => throw (.invalidNode index fault)
  | none =>
    return {
      index
      op := .ofCode (UInt16.ofNat (entry.word 0 2))
      variant := UInt16.ofNat (entry.word 2 2)
      inputs
      outputs
      parameters := entry.drop functionHeadSize }

/-! ## Networks -/

/-- The tables of a descriptor, or its first fault. -/
def Network.decode (bytes : Bytes) : Except DescriptorFault Network := do
  let (header, blocks) ← Header.decode bytes
  let buffers ← decodeBuffers blocks header.buffers
  let variableBlocks ← blocks.signedList header.variableTable .variableTable
  let inputs ← decodeIndices blocks header.inputs .networkInputs .networkInputVariable
    variableBlocks.length
  let outputs ← decodeIndices blocks header.outputs .networkOutputs .networkOutputVariable
    variableBlocks.length
  let variableTable ← traverse (decodeVariable blocks buffers inputs outputs) variableBlocks
  let functionBlocks ← blocks.signedList header.functions .functionTable
  let functions ← traverse (decodeFunction blocks variableBlocks.length) functionBlocks
  return {
    version := header.version
    apiLevel := header.apiLevel
    buffers
    variableTable
    functions
    inputs
    outputs
    blocks }

end Inference
