import Inference.Memory.Budget

set_option autoImplicit false
set_option relaxedAutoImplicit false

/-!
# Arenas

An arena is one store cut into regions, laid out once from the list of region sizes and checked
against a budget. Every region starts at a multiple of 16, so there may be unused bytes between
regions. A store that is laid out never grows, and its regions never move.

Regions can be reached in two ways: one at a time by index, or all at once as a table that is
split off the store and joined into it again.

## Main definitions

* `Arena.allocate` — a zeroed arena, or the reason why there is none.
* `Arena.region?`, `Arena.write`, `Arena.clear` — one region by index.
* `Arena.split`, `Arena.join` — the table of all regions.
* `ArenaFault` — a layout that leaves the range of a word, or a store that is too large.
-/

namespace Inference

/-- Why a store cannot be laid out. -/
inductive ArenaFault where
  /-- The store would exceed the budget or what can be allocated. -/
  | outOfMemory (requested budget : Nat)
  /-- The layout leaves the range of a word at this region. -/
  | layoutOverflow (region size : Nat)
deriving DecidableEq

/-- The wording of an arena fault. -/
def ArenaFault.message : ArenaFault → String
  | .outOfMemory requested budget =>
    s!"out of memory: requested {requested} bytes, budget is {budget}"
  | .layoutOverflow region size => s!"arena layout overflows: region {region} of {size} bytes"

/-- One store, cut into regions. -/
structure Arena where
  store : Bytes
  regions : List Span
  budget : Budget
deriving DecidableEq

namespace Arena

/-! ## Layout -/

/-- Every region starts at a multiple of this. -/
def alignment : Nat := 16

/-- The largest store that can be allocated. -/
def allocationLimit : Nat := 0x7fffffffffffffff

/-- The least multiple of the alignment that is not below a position. -/
def alignUp (position : Nat) : Nat :=
  (position + (alignment - 1)) / alignment * alignment

/-- Regions of the given sizes, the first of which has number `region` and starts at `offset`,
and the size of the store they end in. -/
def layout (region offset : Nat) : List Nat → Except ArenaFault (List Span × Nat)
  | [] => .ok ([], offset)
  | size :: rest =>
    if wordLimit ≤ offset + size + (alignment - 1) then .error (.layoutOverflow region size)
    else
      match layout (region + 1) (alignUp (offset + size)) rest with
      | .error fault => .error fault
      | .ok (spans, total) => .ok (⟨offset, offset + size⟩ :: spans, total)

/-- A zeroed arena with regions of the given sizes. -/
def allocate (sizes : List Nat) (budget : Budget) : Except ArenaFault Arena :=
  match layout 0 0 sizes with
  | .error fault => .error fault
  | .ok (regions, total) =>
    if budget.fits total && total ≤ allocationLimit then .ok ⟨Bytes.zeros total, regions, budget⟩
    else .error (.outOfMemory total budget.bytes)

/-- Number of regions. -/
def count (arena : Arena) : Nat :=
  arena.regions.length

/-- Size of the store, with the bytes between regions. -/
def totalBytes (arena : Arena) : Nat :=
  arena.store.length

/-! ## One region -/

/-- Size of a region. -/
def regionSize? (arena : Arena) (index : Nat) : Option Nat :=
  arena.regions[index]?.map Span.length

/-- Contents of a region. -/
def region? (arena : Arena) (index : Nat) : Option Bytes :=
  arena.regions[index]?.map arena.store.slice

/-- Lays bytes over a region from position `offset` of it on, as far as they fit. An arena
without that region stays as it is. -/
def write (arena : Arena) (index offset : Nat) (bytes : Bytes) : Arena :=
  match arena.regions[index]? with
  | none => arena
  | some span =>
    { arena with
      store := arena.store.overwriteAt (span.start + offset) (bytes.take (span.length - offset)) }

/-- Zeroes the store. -/
def clear (arena : Arena) : Arena :=
  { arena with store := Bytes.zeros arena.totalBytes }

/-! ## All regions -/

/-- The contents of successive ranges, of which `rest` starts at position `consumed`. -/
def splitFrom (consumed : Nat) (rest : Bytes) : List Span → List Bytes
  | [] => []
  | span :: spans =>
    let tail := rest.drop (span.start - consumed)
    tail.take span.length :: splitFrom span.stop (tail.drop span.length) spans

/-- The table of all regions. -/
def split (arena : Arena) : List Bytes :=
  splitFrom 0 arena.store arena.regions

/-- `rest`, which starts at position `consumed`, with the entries of a table laid over successive
ranges. -/
def joinFrom (consumed : Nat) (rest : Bytes) : List Span → List Bytes → Bytes
  | span :: spans, region :: regions =>
    let tail := rest.drop (span.start - consumed)
    rest.take (span.start - consumed) ++ Bytes.overwrite (tail.take span.length) region ++
      joinFrom span.stop (tail.drop span.length) spans regions
  | _, _ => rest

/-- The arena whose regions have the contents of a table. -/
def join (arena : Arena) (table : List Bytes) : Arena :=
  { arena with store := joinFrom 0 arena.store arena.regions table }

end Arena

end Inference
