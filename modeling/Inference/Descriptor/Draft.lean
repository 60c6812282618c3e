import Inference.Bytes
import Inference.Descriptor.Decode

set_option autoImplicit false
set_option relaxedAutoImplicit false

/-!
# Writing descriptors

A draft is what a descriptor is written from. Writing never judges: a draft whose references lead
nowhere is written as it stands, and reading it back tells what is wrong with it.

Every list and entry becomes a block of its own, in this order: network inputs, network outputs,
buffers; for each variable its shape, its data if it has any, and its entry; the variable table;
for each function its inputs, its outputs and its entry; the function table. Numbers that do not
fit 32 bits lose their high bits.

## Main definitions

* `VariableDraft`, `FunctionDraft`, `Draft` — what is written.
* `Draft.blocks` — the blocks, and where the tables stand among them.
* `Draft.encode` — the bytes.
-/

namespace Inference

/-- Where the data of a variable to be written lives. -/
inductive Backing where
  /-- A runtime buffer. -/
  | buffer (index : Nat)
  /-- Initial data, written into a block. -/
  | data (bytes : Bytes)
deriving DecidableEq

/-- A variable to be written. -/
structure VariableDraft where
  id : UInt32
  dims : List Nat
  elementType : ElementType := .float
  fixedPoint : Nat := 0
  backing : Backing
deriving DecidableEq

/-- A function to be written. -/
structure FunctionDraft where
  op : Operator
  variant : UInt16 := 0
  inputs : List Nat
  outputs : List Nat
  parameters : Bytes := []
deriving DecidableEq

/-- What a descriptor is written from. -/
structure Draft where
  apiLevel : UInt32 := 44
  buffers : List Nat := []
  variableTable : List VariableDraft := []
  functions : List FunctionDraft := []
  inputs : List Nat := []
  outputs : List Nat := []
deriving DecidableEq

/-! ## Blocks -/

/-- A block of indices or counts. -/
def indexBlock (values : List Nat) : Bytes :=
  values.flatMap (Bytes.ofNatLE 4)

/-- A list reference. -/
def listRefBytes (count block : Nat) : Bytes :=
  Bytes.ofNatLE 4 count ++ Bytes.ofNatLE 4 block

/-- The word that holds an element type and a binary point. -/
def typeWord (type : ElementType) (fixedPoint : Nat) : Nat :=
  type.code + 16 * (fixedPoint % 16)

namespace VariableDraft

/-- The entry of a variable whose shape is block `shapeBlock`. -/
def entry (v : VariableDraft) (shapeBlock : Nat) (dataIndex : Int) : Bytes :=
  Bytes.ofNatLE 4 v.id.toNat ++ listRefBytes v.dims.length shapeBlock ++
    Bytes.ofNatLE 4 (typeWord v.elementType v.fixedPoint) ++ Bytes.ofInt32 dataIndex

/-- The blocks of a variable, the first of which gets number `first`; the entry comes last. -/
def blocks (first : Nat) (v : VariableDraft) : List Bytes :=
  match v.backing with
  | .buffer buffer => [indexBlock v.dims, v.entry first (-(buffer : Int) - 1)]
  | .data bytes => [indexBlock v.dims, bytes, v.entry first (first + 1 : Nat)]

end VariableDraft

namespace FunctionDraft

/-- The blocks of a function, the first of which gets number `first`; the entry comes last. -/
def blocks (first : Nat) (f : FunctionDraft) : List Bytes :=
  [indexBlock f.inputs, indexBlock f.outputs,
   Bytes.ofNatLE 2 f.op.code.toNat ++ Bytes.ofNatLE 2 f.variant.toNat ++
     listRefBytes f.inputs.length first ++ listRefBytes f.outputs.length (first + 1) ++
     f.parameters]

end FunctionDraft

/-- The blocks of a list of things, the first of which gets number `first`, and the number of the
last block of each thing. -/
def placeAll {α : Type} (blocks : Nat → α → List Bytes) (first : Nat) :
    List α → List Bytes × List Nat
  | [] => ([], [])
  | x :: rest =>
    let own := blocks first x
    let (others, entries) := placeAll blocks (first + own.length) rest
    (own ++ others, (first + own.length - 1) :: entries)

/-- The running total of block lengths before each block. -/
def blockOffsets (start : Nat) : List Bytes → List Nat
  | [] => []
  | block :: rest => start :: blockOffsets (start + block.length) rest

namespace Draft

/-- All blocks of a draft, and the numbers of the variable table and of the function table. -/
def blocks (draft : Draft) : List Bytes × Nat × Nat :=
  let lists := [indexBlock draft.inputs, indexBlock draft.outputs, indexBlock draft.buffers]
  let (variableBlocks, variableEntries) :=
    placeAll VariableDraft.blocks lists.length draft.variableTable
  let variableTable := lists.length + variableBlocks.length
  let (functionBlocks, functionEntries) :=
    placeAll FunctionDraft.blocks (variableTable + 1) draft.functions
  let functionTable := variableTable + 1 + functionBlocks.length
  (lists ++ variableBlocks ++ [indexBlock variableEntries] ++ functionBlocks ++
     [indexBlock functionEntries], variableTable, functionTable)

/-- The header of a draft whose blocks are given. -/
def header (draft : Draft) (blockCount dataSize variableTable functionTable : Nat) : Bytes :=
  Bytes.ofNatLE 4 descriptorVersion ++ Bytes.ofNatLE 4 draft.apiLevel.toNat ++
    listRefBytes draft.buffers.length 2 ++
    listRefBytes draft.variableTable.length variableTable ++
    listRefBytes draft.functions.length functionTable ++
    listRefBytes draft.inputs.length 0 ++
    listRefBytes draft.outputs.length 1 ++
    Bytes.ofNatLE 4 blockCount ++ Bytes.ofNatLE 4 dataSize

/-- The bytes of a draft. -/
def encode (draft : Draft) : Bytes :=
  let (blocks, variableTable, functionTable) := draft.blocks
  let data := blocks.flatten
  draft.header blocks.length data.length variableTable functionTable ++
    indexBlock (blockOffsets 0 blocks) ++ data

end Draft

end Inference
