import Inference.Bytes
import Inference.Descriptor.Fault

set_option autoImplicit false
set_option relaxedAutoImplicit false

/-!
# Blocks

The data region of a descriptor is cut into blocks by a table of offsets that never decrease. A
block reaches from its own offset to the next one, and the last block to the end of the region.
Everything else in a descriptor refers to its data by block number.

## Main definitions

* `BlockTable` — a data region and the range of each block.
* `BlockTable.ofOffsets` — the blocks that a table of offsets cuts a region into.
* `BlockTable.get` — a block by its number.
* `ListRef`, `BlockTable.signedList` — a counted list that stands at the start of a block.
-/

namespace Inference

/-- A data region cut into blocks. -/
structure BlockTable where
  data : Bytes
  spans : List Span
deriving DecidableEq

/-- A list as an entry refers to it: how many items it has, and the block they stand in. -/
structure ListRef where
  count : Nat
  block : Int
deriving DecidableEq

/-- Bytes that a list reference takes. -/
def ListRef.byteSize : Nat := 8

/-- The list reference at an offset of a byte string that is known to reach that far. -/
def ListRef.read (bytes : Bytes) (offset : Nat) : ListRef :=
  ⟨bytes.word offset 4, bytes.signedWord (offset + 4)⟩

namespace BlockTable

/-- The ranges between consecutive offsets, and from the last one to the end. -/
def spansOf (dataSize : Nat) : List Nat → List Span
  | [] => []
  | [start] => [⟨start, dataSize⟩]
  | start :: next :: rest => ⟨start, next⟩ :: spansOf dataSize (next :: rest)

/-- The first offset that exceeds the region or is below the offset before it, with its block
number. -/
def firstBadOffset? (dataSize : Nat) (block previous : Nat) : List Nat → Option (Nat × Nat)
  | [] => none
  | offset :: rest =>
    if dataSize < offset ∨ offset < previous then some (block, offset)
    else firstBadOffset? dataSize (block + 1) offset rest

/-- The blocks that a table of offsets cuts a region into. -/
def ofOffsets (offsets : List Nat) (data : Bytes) : Except DescriptorFault BlockTable :=
  match firstBadOffset? data.length 0 0 offsets with
  | some (block, offset) => .error (.badBlockOffset block offset data.length)
  | none => .ok ⟨data, spansOf data.length offsets⟩

/-- Number of blocks. -/
def count (blocks : BlockTable) : Nat :=
  blocks.spans.length

/-- The bytes of a block. -/
def block? (blocks : BlockTable) (index : Nat) : Option Bytes :=
  blocks.spans[index]?.map blocks.data.slice

/-- A block by the signed number that refers to it. -/
def get (blocks : BlockTable) (index : Int) (what : Referent) :
    Except DescriptorFault (Nat × Bytes) :=
  if index < 0 then .error (.indexOutOfRange what index blocks.count)
  else
    match blocks.block? index.toNat with
    | none => .error (.indexOutOfRange what index blocks.count)
    | some bytes => .ok (index.toNat, bytes)

/-- The signed words of a list. An empty list reads nothing, whatever block it names. -/
def signedList (blocks : BlockTable) (ref : ListRef) (what : Referent) :
    Except DescriptorFault (List Int) :=
  if ref.count = 0 then .ok []
  else
    match blocks.get ref.block what with
    | .error fault => .error fault
    | .ok (block, bytes) =>
      if bytes.length < 4 * ref.count then
        .error (.blockTooShort block what (4 * ref.count) bytes.length)
      else .ok (Bytes.signedWords (bytes.take (4 * ref.count)))

end BlockTable

end Inference
