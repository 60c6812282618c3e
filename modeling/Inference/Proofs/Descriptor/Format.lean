import Inference.Descriptor.Decode
import Mathlib.Algebra.BigOperators.Group.List.Basic

set_option autoImplicit false
set_option relaxedAutoImplicit false

/-!
# The descriptor format

What makes a byte string a descriptor, and the tables it then holds. Nothing here reads in an
order or stops at a fault: every condition is about the words at their documented offsets, and
every reference leads to a block by its number.

The conditions on lists and entries only look at what the blocks hold, so they are stated over a
function from block numbers to contents. `Format.blocks` is that function for a byte string.

## Main definitions

* `Format.ListFits`, `Format.items` — a list reference that can be followed, and its items.
* `Format.VariableFits`, `Format.FunctionFits` — an entry of the variable or function table that
  is in order.
* `Format.Framed`, `Format.WellFormed` — a byte string that is cut into blocks, and one that is a
  descriptor.
* `Format.variableAt`, `Format.functionAt`, `Format.network` — the tables at their documented
  places.
-/

namespace Inference

/-- What each block holds, by its number; absent past the last block. -/
abbrev BlockContents := Nat → Option Bytes

namespace Format

/-! ## References -/

/-- The block that a signed number refers to. A negative number refers to none. -/
def named? (blocks : BlockContents) (reference : Int) : Option Bytes :=
  if reference < 0 then none else blocks reference.toNat

/-- The bytes that a signed number refers to, empty where it refers to no block. -/
def named (blocks : BlockContents) (reference : Int) : Bytes :=
  (named? blocks reference).getD []

/-- A list that can be followed: it is empty, or its block exists and has room for its items. An
empty list can be followed whatever its block. -/
def ListFits (blocks : BlockContents) (ref : ListRef) : Prop :=
  ref.count = 0 ∨ ∃ bytes, named? blocks ref.block = some bytes ∧ 4 * ref.count ≤ bytes.length

/-- The items of a list: the signed words at the start of its block. -/
def items (blocks : BlockContents) (ref : ListRef) : List Int :=
  (List.range ref.count).map fun k => (named blocks ref.block).signedWord (4 * k)

/-- A list has as many items as its reference says. -/
@[simp]
lemma length_items (blocks : BlockContents) (ref : ListRef) :
    (items blocks ref).length = ref.count := by
  simp [items]

/-- The items of a list stand at the multiples of four. -/
@[simp]
lemma getElem_items (blocks : BlockContents) (ref : ListRef) (k : Nat)
    (hk : k < (items blocks ref).length) :
    (items blocks ref)[k] = (named blocks ref.block).signedWord (4 * k) := by
  simp [items]

/-- The items of a list of indices or counts. -/
def indices (blocks : BlockContents) (ref : ListRef) : List Nat :=
  (items blocks ref).map Int.toNat

/-- A list that can be followed to indices below a count. -/
def IndicesFit (blocks : BlockContents) (ref : ListRef) (count : Nat) : Prop :=
  ListFits blocks ref ∧ ∀ index ∈ items blocks ref, 0 ≤ index ∧ index < count

/-- A list that can be followed to counts, none of which is negative. -/
def CountsFit (blocks : BlockContents) (ref : ListRef) : Prop :=
  ListFits blocks ref ∧ ∀ size ∈ items blocks ref, 0 ≤ size

/-! ## Variable entries -/

/-- The dimensions of a variable entry. -/
def dims (blocks : BlockContents) (entry : Bytes) : List Nat :=
  indices blocks (.read entry 4)

/-- The type code of a variable entry: the low four bits of its type word. -/
def typeCode (entry : Bytes) : Nat :=
  entry.word 12 4 % 16

/-- Bytes per element by type code. -/
def elementSize : (code : Nat) → Nat
  | 0 => 4
  | 1 => 2
  | _ => 1

/-- The place that a data index names is there and large enough: a negative index counts buffers
down from -1, another one is the number of a block. -/
structure DataFits (blocks : BlockContents) (buffers : List Nat) (elements size : Nat)
    (dataIndex : Int) : Prop where
  buffer : dataIndex < 0 →
    ∃ capacity, buffers[(-dataIndex - 1).toNat]? = some capacity ∧ elements ≤ capacity
  block : 0 ≤ dataIndex → ∃ data, blocks dataIndex.toNat = some data ∧ size ≤ data.length

/-- A variable entry that is in order. -/
structure VariableFits (blocks : BlockContents) (buffers : List Nat) (entry : Bytes) : Prop where
  complete : 20 ≤ entry.length
  shape : CountsFit blocks (.read entry 4)
  type : typeCode entry ≤ 3
  /-- The dimensions multiplied from the left stay below the word limit at every step. -/
  products : ∀ k ≤ (dims blocks entry).length, ((dims blocks entry).take k).prod < wordLimit
  size : (dims blocks entry).prod * elementSize (typeCode entry) < wordLimit
  data : DataFits blocks buffers (dims blocks entry).prod
    ((dims blocks entry).prod * elementSize (typeCode entry)) (entry.signedWord 16)

/-- The place that a data index names. -/
def storageOf (dataIndex : Int) : Storage :=
  if dataIndex < 0 then .buffer (-dataIndex - 1).toNat else .parameter dataIndex.toNat

/-- The variable of an entry. -/
def variableAt (blocks : BlockContents) (inputs outputs : List Nat) (index : Nat)
    (entry : Bytes) : Variable where
  index := index
  id := UInt32.ofNat (entry.word 0 4)
  shape := ⟨dims blocks entry⟩
  elementType := (ElementType.ofCode? (typeCode entry)).getD .float
  fixedPoint := entry.word 12 4 / 16 % 16
  storage := storageOf (entry.signedWord 16)
  role := roleOf inputs outputs index (storageOf (entry.signedWord 16))

/-! ## Function entries -/

/-- A function entry that is in order. -/
structure FunctionFits (blocks : BlockContents) (variableCount : Nat) (entry : Bytes) :
    Prop where
  complete : 20 ≤ entry.length
  inputs : IndicesFit blocks (.read entry 4) variableCount
  outputs : IndicesFit blocks (.read entry 12) variableCount
  /-- No variable is listed twice as an output. -/
  distinct : (indices blocks (.read entry 12)).Nodup
  /-- No variable is both an input and an output. -/
  disjoint : (indices blocks (.read entry 4)).Disjoint (indices blocks (.read entry 12))

/-- The function of an entry. -/
def functionAt (blocks : BlockContents) (index : Nat) (entry : Bytes) : FunctionEntry where
  index := index
  op := .ofCode (UInt16.ofNat (entry.word 0 2))
  variant := UInt16.ofNat (entry.word 2 2)
  inputs := indices blocks (.read entry 4)
  outputs := indices blocks (.read entry 12)
  parameters := entry.drop 20

/-! ## Byte strings -/

/-- Number of blocks. -/
def blockCount (bytes : Bytes) : Nat :=
  bytes.word 48 4

/-- Bytes of the data region. -/
def dataSize (bytes : Bytes) : Nat :=
  bytes.word 52 4

/-- Where the data region starts, behind the header and the block offsets. -/
def dataStart (bytes : Bytes) : Nat :=
  56 + 4 * blockCount bytes

/-- The offset of a block from the start of the data region. -/
def blockOffset (bytes : Bytes) (block : Nat) : Nat :=
  bytes.word (56 + 4 * block) 4

/-- Where a block ends: where the next one starts, or at the end of the data region. -/
def blockEnd (bytes : Bytes) (block : Nat) : Nat :=
  if block + 1 < blockCount bytes then blockOffset bytes (block + 1) else dataSize bytes

/-- What the blocks of a byte string hold. -/
def blocks (bytes : Bytes) : BlockContents := fun block =>
  if block < blockCount bytes then
    some (bytes.slice ⟨dataStart bytes + blockOffset bytes block,
      dataStart bytes + blockEnd bytes block⟩)
  else none

/-- Number of entries of the variable table. -/
def variableCount (bytes : Bytes) : Nat :=
  (ListRef.read bytes 16).count

/-- The element counts of the buffers. -/
def buffers (bytes : Bytes) : List Nat :=
  indices (blocks bytes) (.read bytes 8)

/-- The data region and the ranges of its blocks. -/
def table (bytes : Bytes) : BlockTable where
  data := bytes.slice ⟨dataStart bytes, dataStart bytes + dataSize bytes⟩
  spans := (List.range (blockCount bytes)).map fun block =>
    ⟨blockOffset bytes block, blockEnd bytes block⟩

/-- The sections of a byte string fit it, and the offsets cut its data region into blocks. -/
structure Framed (bytes : Bytes) : Prop where
  header : 56 ≤ bytes.length
  version : bytes.word 0 4 = 2
  extent : 56 + 4 * blockCount bytes + dataSize bytes ≤ bytes.length
  offsets_within : ∀ block < blockCount bytes, blockOffset bytes block ≤ dataSize bytes
  offsets_ordered : ∀ earlier later, earlier ≤ later → later < blockCount bytes →
    blockOffset bytes earlier ≤ blockOffset bytes later

/-- A byte string that is a descriptor. Bytes after the data region do not count. -/
structure WellFormed (bytes : Bytes) : Prop extends Framed bytes where
  buffers : CountsFit (blocks bytes) (.read bytes 8)
  variableList : ListFits (blocks bytes) (.read bytes 16)
  functionList : ListFits (blocks bytes) (.read bytes 24)
  inputs : IndicesFit (blocks bytes) (.read bytes 32) (variableCount bytes)
  outputs : IndicesFit (blocks bytes) (.read bytes 40) (variableCount bytes)
  variableEntries : ∀ reference ∈ items (blocks bytes) (.read bytes 16),
    ∃ entry, named? (blocks bytes) reference = some entry ∧
      VariableFits (blocks bytes) (Format.buffers bytes) entry
  functionEntries : ∀ reference ∈ items (blocks bytes) (.read bytes 24),
    ∃ entry, named? (blocks bytes) reference = some entry ∧
      FunctionFits (blocks bytes) (variableCount bytes) entry

/-- The tables of a byte string that is a descriptor. -/
def network (bytes : Bytes) : Network :=
  let inputs := indices (blocks bytes) (.read bytes 32)
  let outputs := indices (blocks bytes) (.read bytes 40)
  { version := bytes.word 0 4
    apiLevel := bytes.word 4 4
    buffers := buffers bytes
    variableTable := (items (blocks bytes) (.read bytes 16)).mapIdx fun index reference =>
      variableAt (blocks bytes) inputs outputs index (named (blocks bytes) reference)
    functions := (items (blocks bytes) (.read bytes 24)).mapIdx fun index reference =>
      functionAt (blocks bytes) index (named (blocks bytes) reference)
    inputs := inputs
    outputs := outputs
    blocks := table bytes }

section

variable (bytes : Bytes)

/-- The level stands behind the version. -/
@[simp]
lemma network_apiLevel : (network bytes).apiLevel = bytes.word 4 4 := rfl

/-- The buffers are those of the buffer list. -/
@[simp]
lemma network_buffers : (network bytes).buffers = buffers bytes := rfl

/-- The network inputs are the items of their list. -/
@[simp]
lemma network_inputs : (network bytes).inputs = indices (blocks bytes) (.read bytes 32) := rfl

/-- The network outputs are the items of their list. -/
@[simp]
lemma network_outputs : (network bytes).outputs = indices (blocks bytes) (.read bytes 40) := rfl

/-- The variables are those of the entries that the variable table lists. -/
lemma network_variableTable : (network bytes).variableTable =
    (items (blocks bytes) (.read bytes 16)).mapIdx fun index reference =>
      variableAt (blocks bytes) (network bytes).inputs (network bytes).outputs index
        (named (blocks bytes) reference) := rfl

/-- The functions are those of the entries that the function table lists. -/
lemma network_functions : (network bytes).functions =
    (items (blocks bytes) (.read bytes 24)).mapIdx fun index reference =>
      functionAt (blocks bytes) index (named (blocks bytes) reference) := rfl

/-- The blocks are cut out of the data region. -/
@[simp]
lemma network_blocks : (network bytes).blocks = table bytes := rfl

end

end Format

end Inference
