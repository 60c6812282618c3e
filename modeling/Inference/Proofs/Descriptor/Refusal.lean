import Inference.Descriptor.Draft
import Inference.Proofs.Descriptor.Checks
import Mathlib.Order.Bounds.Basic

set_option autoImplicit false
set_option relaxedAutoImplicit false

/-!
# Which fault is reported

Of all that can be wrong with a byte string, one fault is reported: that of the first check that is
violated. So a block, buffer, variable or function that is named is the first one of its table that
is out of order, and the figures are those of the place where the fault was found.

What is out of order is said here by the conditions of the format alone, which do not look at one
part before another.

## Main definitions

* `Format.FirstBadRow` — the first row of a table that is out of order.
* `Format.Refers` — what a reference stands for, where it is written, and the bytes it needs.
* `Format.Justified` — a fault that names the first row out of order, with the true figures.

## Main results

* `Network.decode_reports_first` — the fault of the first violation is reported.
-/

namespace Inference

namespace Format

/-! ## What is out of order -/

/-- A block that starts outside the data region, or before the block before it. -/
def BadBlock (bytes : Bytes) (block : Nat) : Prop :=
  block < blockCount bytes ∧ (dataSize bytes < blockOffset bytes block ∨
    0 < block ∧ blockOffset bytes block < blockOffset bytes (block - 1))

/-- A buffer with a negative element count. -/
def BadBuffer (bytes : Bytes) (buffer : Nat) : Prop :=
  ∃ size < 0, (items (blocks bytes) (.read bytes 8))[buffer]? = some size

/-- A row of a table whose reference leads to no entry that is in order. -/
def BadRow (blocks : BlockContents) (Fits : Bytes → Prop) (table : ListRef) (index : Nat) : Prop :=
  ∃ reference, (items blocks table)[index]? = some reference ∧
    ¬∃ entry, named? blocks reference = some entry ∧ Fits entry

/-- The first row of a table that is out of order. -/
structure FirstBadRow (blocks : BlockContents) (Fits : Bytes → Prop) (table : ListRef)
    (index : Nat) (reference : Int) : Prop where
  least : IsLeast {row | BadRow blocks Fits table row} index
  row : (items blocks table)[index]? = some reference

/-- The first variable that is out of order. -/
def FirstBadVariable (bytes : Bytes) : Nat → Int → Prop :=
  FirstBadRow (blocks bytes) (VariableFits (blocks bytes) (buffers bytes)) (.read bytes 16)

/-- The first function that is out of order. -/
def FirstBadFunction (bytes : Bytes) : Nat → Int → Prop :=
  FirstBadRow (blocks bytes) (FunctionFits (blocks bytes) (variableCount bytes)) (.read bytes 24)

/-- What is said about the bytes of a row holds for the first variable that is out of order. -/
def AtBadVariable (bytes : Bytes) (Says : Bytes → Prop) : Prop :=
  ∃ index reference, FirstBadVariable bytes index reference ∧ Says (named (blocks bytes) reference)

/-- What is said about the bytes of a row holds for the first function that is out of order. -/
def AtBadFunction (bytes : Bytes) (Says : Bytes → Prop) : Prop :=
  ∃ index reference, FirstBadFunction bytes index reference ∧ Says (named (blocks bytes) reference)

/-! ## Figures -/

/-- Where a section ends. -/
def sectionEnd (bytes : Bytes) : Section → Nat
  | .header => 56
  | .offsetTable => dataStart bytes
  | .dataRegion => dataStart bytes + dataSize bytes

/-- How many things there are of the kind that a reference stands for. -/
def limit (bytes : Bytes) : Referent → Nat
  | .buffer => (buffers bytes).length
  | .networkInputVariable => variableCount bytes
  | .networkOutputVariable => variableCount bytes
  | .functionInputVariable => variableCount bytes
  | .functionOutputVariable => variableCount bytes
  | _ => blockCount bytes

/-- A reference is the block of a list, and the bytes are those of the items of the list. -/
def IsList (reference : Int) (needed : Nat) (list : ListRef) : Prop :=
  reference = list.block ∧ needed = 4 * list.count

/-- Where a reference is written, and how many bytes are needed in the block that it stands for.
What is written in an entry is written in the first one that is out of order. -/
def Refers (bytes : Bytes) (reference : Int) (needed : Nat) : Referent → Prop
  | .bufferTable => IsList reference needed (.read bytes 8)
  | .variableTable => IsList reference needed (.read bytes 16)
  | .functionTable => IsList reference needed (.read bytes 24)
  | .networkInputs => IsList reference needed (.read bytes 32)
  | .networkOutputs => IsList reference needed (.read bytes 40)
  | .networkInputVariable => reference ∈ items (blocks bytes) (.read bytes 32)
  | .networkOutputVariable => reference ∈ items (blocks bytes) (.read bytes 40)
  | .variableEntry => (∃ index, FirstBadVariable bytes index reference) ∧ needed = 20
  | .variableShape => AtBadVariable bytes fun entry => IsList reference needed (.read entry 4)
  | .parameterData => AtBadVariable bytes fun entry => reference = entry.signedWord 16 ∧
      needed = (dims (blocks bytes) entry).prod * elementSize (typeCode entry)
  | .buffer => AtBadVariable bytes fun entry => reference = -entry.signedWord 16 - 1
  | .functionEntry => (∃ index, FirstBadFunction bytes index reference) ∧ needed = 20
  | .functionInputs => AtBadFunction bytes fun entry => IsList reference needed (.read entry 4)
  | .functionOutputs => AtBadFunction bytes fun entry => IsList reference needed (.read entry 12)
  | .functionInputVariable => AtBadFunction bytes fun entry =>
      reference ∈ items (blocks bytes) (.read entry 4)
  | .functionOutputVariable => AtBadFunction bytes fun entry =>
      reference ∈ items (blocks bytes) (.read entry 12)

/-- What a fault says about a variable entry is so. -/
def VariableShows (bytes entry : Bytes) : VariableFault → Prop
  | .negativeDimension dim => dim ∈ items (blocks bytes) (.read entry 4) ∧ dim < 0
  | .unknownElementType code => code = typeCode entry ∧ 3 < code
  | .shapeOverflow shape => shape = ⟨dims (blocks bytes) entry⟩ ∧
      ((∃ k ≤ shape.dims.length, wordLimit ≤ (shape.dims.take k).prod) ∨
        wordLimit ≤ shape.dims.prod * elementSize (typeCode entry))
  | .bufferTooSmall elements buffer capacity =>
      elements = (dims (blocks bytes) entry).prod ∧
      storageOf (entry.signedWord 16) = .buffer buffer ∧
      (buffers bytes)[buffer]? = some capacity ∧ capacity < elements

/-- What a fault says about a function entry is so. -/
def FunctionShows (bytes entry : Bytes) : NodeFault → Prop
  | .duplicateOutput output => ∃ first second : Nat, first < second ∧
      (indices (blocks bytes) (.read entry 12))[first]? = some output ∧
      (indices (blocks bytes) (.read entry 12))[second]? = some output
  | .aliasedOutput output => output ∈ indices (blocks bytes) (.read entry 4) ∧
      output ∈ indices (blocks bytes) (.read entry 12)
  | _ => False

/-- A fault that names the first row out of order, and whose figures are the true ones. -/
def Justified (bytes : Bytes) : DescriptorFault → Prop
  | .truncated part needed actual =>
      needed = sectionEnd bytes part ∧ actual = bytes.length ∧ actual < needed
  | .unsupportedVersion version => version = bytes.word 0 4 ∧ version ≠ 2
  | .badBlockOffset block offset size => IsLeast {block | BadBlock bytes block} block ∧
      offset = blockOffset bytes block ∧ size = dataSize bytes
  | .indexOutOfRange what index count => (∃ needed, Refers bytes index needed what) ∧
      count = limit bytes what ∧ ¬(0 ≤ index ∧ index < count)
  | .blockTooShort block what needed actual => ∃ reference data,
      Refers bytes reference needed what ∧ named? (blocks bytes) reference = some data ∧
      block = reference.toNat ∧ actual = data.length ∧ actual < needed
  | .invalidBuffer buffer size => IsLeast {buffer | BadBuffer bytes buffer} buffer ∧
      (items (blocks bytes) (.read bytes 8))[buffer]? = some size
  | .invalidVariable index fault => ∃ reference, FirstBadVariable bytes index reference ∧
      VariableShows bytes (named (blocks bytes) reference) fault
  | .invalidNode index fault => ∃ reference, FirstBadFunction bytes index reference ∧
      FunctionShows bytes (named (blocks bytes) reference) fault
  | .invalidParameters _ _ => False

end Format

open Format

section

variable {bytes : Bytes} {fault : DescriptorFault}

/-! ## References and lists -/

/-- A violation at a reference is justified where the reference is written. -/
lemma justified_of_blockChecks {what : Referent} {reference : Int} {needed : Nat}
    (h : FirstFailing (blockChecks (blocks bytes) (blockCount bytes) what reference needed) fault)
    (hrefers : Refers bytes reference needed what) (hlimit : limit bytes what = blockCount bytes) :
    Justified bytes fault := by
  rw [blockChecks, firstFailing_cons_iff, firstFailing_singleton] at h
  obtain ⟨houtside, rfl⟩ | ⟨⟨hlow, hhigh⟩, hshort, rfl⟩ := h
  · exact ⟨⟨needed, hrefers⟩, hlimit.symm, houtside⟩
  · have hinside : reference.toNat < blockCount bytes := by omega
    have hnamed : ∃ data, named? (blocks bytes) reference = some data := by
      simp [named?, blocks, hinside, Int.not_lt.mpr hlow]
    obtain ⟨data, hdata⟩ := hnamed
    rw [named_eq hdata] at hshort ⊢
    exact ⟨reference, data, hrefers, hdata, rfl, rfl, Nat.not_le.mp hshort⟩

/-- A violation at a list is justified where the list is referred to. -/
lemma justified_of_listChecks {what : Referent} {ref : ListRef}
    (h : FirstFailing (listChecks (blocks bytes) (blockCount bytes) what ref) fault)
    (hrefers : Refers bytes ref.block (4 * ref.count) what)
    (hlimit : limit bytes what = blockCount bytes) : Justified bytes fault := by
  unfold listChecks at h
  split at h
  · exact absurd h not_firstFailing_nil
  · exact justified_of_blockChecks h hrefers hlimit

/-- So is a violation at an item of a list of indices. -/
lemma justified_of_indicesChecks {list item : Referent} {ref : ListRef}
    (h : FirstFailing (indicesChecks (blocks bytes) (blockCount bytes) list item
      (variableCount bytes) ref) fault)
    (hlist : Refers bytes ref.block (4 * ref.count) list)
    (hlistLimit : limit bytes list = blockCount bytes)
    (hitem : ∀ index ∈ items (blocks bytes) ref, Refers bytes index 0 item)
    (hitemLimit : limit bytes item = variableCount bytes) : Justified bytes fault := by
  obtain h | ⟨-, h⟩ := firstFailing_append_iff.mp h
  · exact justified_of_listChecks h hlist hlistLimit
  · obtain ⟨check, hcheck, hviolated, rfl⟩ := h.exists_mem
    obtain ⟨index, hindex, rfl⟩ := List.mem_map.mp hcheck
    exact ⟨⟨0, hitem index hindex⟩, hitemLimit.symm, hviolated⟩

/-! ## Entries -/

/-- The checks of a variable all hold if its entry is in order. -/
lemma allHold_variableChecks_iff (hoffsets : AllHold (offsetChecks bytes)) {index : Nat}
    {reference : Int} :
    AllHold (variableChecks (blocks bytes) (blockCount bytes) (buffers bytes) index reference) ↔
      ∃ entry, named? (blocks bytes) reference = some entry ∧
        VariableFits (blocks bytes) (buffers bytes) entry := by
  rw [← block?_table_of_allHold hoffsets, ← count_table,
    ← (decodeVariable_follows (buffers bytes) [] [] index reference).exists_ok_iff]
  simp only [decodeVariable_eq_ok_iff, exists_and_left, exists_eq, and_true]

/-- The checks of a function all hold if its entry is in order. -/
lemma allHold_functionChecks_iff (hoffsets : AllHold (offsetChecks bytes)) {index : Nat}
    {reference : Int} :
    AllHold (functionChecks (blocks bytes) (blockCount bytes) (variableCount bytes) index
        reference) ↔
      ∃ entry, named? (blocks bytes) reference = some entry ∧
        FunctionFits (blocks bytes) (variableCount bytes) entry := by
  rw [← block?_table_of_allHold hoffsets, ← count_table,
    ← (decodeFunction_follows (variableCount bytes) index reference).exists_ok_iff]
  simp only [decodeFunction_eq_ok_iff, exists_and_left, exists_eq, and_true]

/-- The first violation in the rows of a table is in the first row that is out of order. -/
lemma exists_firstBadRow {blocks : BlockContents} {Fits : Bytes → Prop} {table : ListRef}
    {rowChecks : Nat → Int → List (Check DescriptorFault)}
    (hfits : ∀ {index reference}, AllHold (rowChecks index reference) ↔
      ∃ entry, named? blocks reference = some entry ∧ Fits entry)
    (h : FirstFailing ((items blocks table).mapIdx rowChecks).flatten fault) :
    ∃ index reference, FirstBadRow blocks Fits table index reference ∧
      FirstFailing (rowChecks index reference) fault := by
  obtain ⟨index, reference, hrow, hfail, hearlier⟩ := firstFailing_flatten_iff.mp h
  have hbad : BadRow blocks Fits table index :=
    ⟨reference, hrow, fun hfit => hfail.not_allHold (hfits.mpr hfit)⟩
  refine ⟨index, reference, ⟨⟨hbad, fun row hrowBad => ?_⟩, hrow⟩, hfail⟩
  obtain ⟨earlier, hrowEarlier, hunfit⟩ := hrowBad
  by_contra hlt
  exact hunfit (hfits.mp (hearlier row (Nat.not_le.mp hlt) earlier hrowEarlier))

/-- A violation at the first variable that is out of order is justified. -/
lemma justified_of_variableChecks {index : Nat} {reference : Int}
    (hfirst : FirstBadVariable bytes index reference)
    (h : FirstFailing (variableChecks (blocks bytes) (blockCount bytes) (buffers bytes) index
      reference) fault) : Justified bytes fault := by
  simp only [variableChecks, firstFailing_append_iff, firstFailing_singleton] at h
  rcases h with (((h | ⟨-, h⟩) | ⟨-, h⟩) | ⟨-, h⟩) | ⟨-, h⟩
  · exact justified_of_blockChecks h ⟨⟨index, hfirst⟩, rfl⟩ rfl
  · obtain h | ⟨-, h⟩ := firstFailing_append_iff.mp h
    · exact justified_of_listChecks h ⟨_, _, hfirst, rfl, rfl⟩ rfl
    · obtain ⟨check, hcheck, hviolated, rfl⟩ := h.exists_mem
      obtain ⟨dim, hdim, rfl⟩ := List.mem_map.mp hcheck
      exact ⟨_, hfirst, hdim, Int.not_le.mp hviolated⟩
  · obtain ⟨hcode, rfl⟩ := h
    exact ⟨_, hfirst, rfl, Nat.not_le.mp hcode⟩
  · obtain ⟨hover, rfl⟩ := h
    refine ⟨_, hfirst, rfl, ?_⟩
    simpa [sizeCheck, imp_iff_not_or] using hover
  · unfold dataChecks at h
    split at h
    · next hneg =>
      rw [firstFailing_cons_iff, firstFailing_singleton] at h
      obtain ⟨houtside, rfl⟩ | ⟨⟨hlow, hhigh⟩, hsmall, rfl⟩ := h
      · exact ⟨⟨0, _, _, hfirst, rfl⟩, rfl, houtside⟩
      · refine ⟨_, hfirst, rfl, if_pos hneg, ?_, Nat.not_le.mp hsmall⟩
        rw [List.getElem?_eq_getElem (by omega), Option.getD_some]
    · exact justified_of_blockChecks h ⟨_, _, hfirst, rfl, rfl⟩ rfl

/-- A violation at the first function that is out of order is justified. -/
lemma justified_of_functionChecks {index : Nat} {reference : Int}
    (hfirst : FirstBadFunction bytes index reference)
    (h : FirstFailing (functionChecks (blocks bytes) (blockCount bytes) (variableCount bytes) index
      reference) fault) : Justified bytes fault := by
  simp only [functionChecks, firstFailing_append_iff] at h
  rcases h with ((h | ⟨-, h⟩) | ⟨-, h⟩) | ⟨-, h⟩
  · exact justified_of_blockChecks h ⟨⟨index, hfirst⟩, rfl⟩ rfl
  · exact justified_of_indicesChecks h ⟨_, _, hfirst, rfl, rfl⟩ rfl
      (fun _ hmem => ⟨_, _, hfirst, hmem⟩) rfl
  · exact justified_of_indicesChecks h ⟨_, _, hfirst, rfl, rfl⟩ rfl
      (fun _ hmem => ⟨_, _, hfirst, hmem⟩) rfl
  · obtain ⟨position, output, houtput, hfail, -⟩ := firstFailing_flatten_iff.mp h
    rw [outputChecks, firstFailing_cons_iff, firstFailing_singleton] at hfail
    obtain ⟨hlisted, rfl⟩ | ⟨-, hinput, rfl⟩ := hfail
    · obtain ⟨earlier, hlt, hearlier⟩ := List.mem_take_iff_getElem.mp (not_not.mp hlisted)
      exact ⟨_, hfirst, earlier, position, by omega,
        List.getElem?_eq_some_iff.mpr ⟨by omega, hearlier⟩, houtput⟩
    · exact ⟨_, hfirst, not_not.mp hinput, List.mem_of_getElem? houtput⟩

/-! ## The whole descriptor -/

/-- A violation in the header is justified. -/
lemma justified_of_headerChecks (h : FirstFailing (headerChecks bytes) fault) :
    Justified bytes fault := by
  simp only [headerChecks, firstFailing_cons_iff, not_firstFailing_nil, and_false, or_false] at h
  rcases h with ⟨hshort, rfl⟩ | ⟨-, ⟨hversion, rfl⟩ | ⟨-, ⟨hshort, rfl⟩ | ⟨-, hshort, rfl⟩⟩⟩
  · exact ⟨rfl, rfl, Nat.not_le.mp hshort⟩
  · exact ⟨rfl, hversion⟩
  · exact ⟨rfl, rfl, Nat.not_le.mp hshort⟩
  · exact ⟨rfl, rfl, Nat.not_le.mp hshort⟩

/-- A block is out of order if its offset is refused. -/
lemma badBlock_iff {block : Nat} :
    BadBlock bytes block ↔ block < blockCount bytes ∧ ¬(offsetCheck bytes block).holds := by
  simp only [BadBlock, offsetCheck, not_and_or, Nat.not_le, Classical.not_imp]

/-- A violation at a block offset is justified. -/
lemma justified_of_offsetChecks (h : FirstFailing (offsetChecks bytes) fault) :
    Justified bytes fault := by
  rw [offsetChecks, ← mapIdx_const, firstFailing_mapIdx_iff] at h
  obtain ⟨i, block, hblock, ⟨hviolated, rfl⟩, hearlier⟩ := h
  obtain ⟨hlt, rfl⟩ : i < blockCount bytes ∧ i = block := by
    simpa [List.getElem?_eq_some_iff] using hblock
  refine ⟨⟨badBlock_iff.mpr ⟨hlt, hviolated⟩, fun other hother => ?_⟩, rfl, rfl⟩
  obtain ⟨hinside, hbad⟩ := badBlock_iff.mp hother
  by_contra hbefore
  exact hbad (hearlier other (Nat.not_le.mp hbefore) other (List.getElem?_range hinside))

/-- A violation at a buffer is justified. -/
lemma justified_of_bufferChecks
    (h : FirstFailing (bufferChecks (blocks bytes) (blockCount bytes) (.read bytes 8)) fault) :
    Justified bytes fault := by
  obtain h | ⟨-, h⟩ := firstFailing_append_iff.mp h
  · exact justified_of_listChecks h ⟨rfl, rfl⟩ rfl
  · obtain ⟨buffer, size, hsize, ⟨hviolated, rfl⟩, hearlier⟩ := firstFailing_mapIdx_iff.mp h
    refine ⟨⟨⟨size, Int.not_le.mp hviolated, hsize⟩, ?_⟩, hsize⟩
    rintro other ⟨otherSize, hnegative, hother⟩
    by_contra hlt
    exact Int.not_le.mpr hnegative (hearlier other (Nat.not_le.mp hlt) otherSize hother)

/-- The first violation is justified. -/
lemma justified_of_checks (h : FirstFailing (checks bytes) fault) : Justified bytes fault := by
  simp only [checks, firstFailing_append_iff, allHold_append, and_assoc] at h
  rcases h with (((((((h | ⟨-, h⟩) | ⟨-, -, h⟩) | ⟨-, -, -, h⟩) | ⟨-, -, -, -, h⟩) |
    ⟨-, -, -, -, -, h⟩) | ⟨-, hoffsets, -, -, -, -, h⟩) | ⟨-, -, -, -, -, -, -, h⟩) |
    ⟨-, hoffsets, -, -, -, -, -, -, h⟩
  · exact justified_of_headerChecks h
  · exact justified_of_offsetChecks h
  · exact justified_of_bufferChecks h
  · exact justified_of_listChecks h ⟨rfl, rfl⟩ rfl
  · exact justified_of_indicesChecks h ⟨rfl, rfl⟩ rfl (fun _ hmem => hmem) rfl
  · exact justified_of_indicesChecks h ⟨rfl, rfl⟩ rfl (fun _ hmem => hmem) rfl
  · obtain ⟨index, reference, hfirst, hfail⟩ :=
      exists_firstBadRow (allHold_variableChecks_iff hoffsets) h
    exact justified_of_variableChecks hfirst hfail
  · exact justified_of_listChecks h ⟨rfl, rfl⟩ rfl
  · obtain ⟨index, reference, hfirst, hfail⟩ :=
      exists_firstBadRow (allHold_functionChecks_iff hoffsets) h
    exact justified_of_functionChecks hfirst hfail

end

/-- **First fault**: a byte string that is refused is refused with the fault of the first check that
is violated, in the order of `Format.checks`, and a byte string without a violation is read. The
block, buffer, variable or function that is named is the first one of its table that is out of
order, and the figures are the true ones at that place.

**Proof sketch.** Reading follows the checks (`Network.decode_follows`). The first violation is in
one stage, all stages before it hold, and in a table it is in the first row whose checks do not all
hold, which is the first row that is out of order (`exists_firstBadRow`). What is left is to read
the figures off the check that is violated. -/
theorem Network.decode_reports_first (bytes : Bytes) :
    (∀ fault, Network.decode bytes = .error fault ↔ FirstFailing (checks bytes) fault) ∧
      ((∃ network, Network.decode bytes = .ok network) ↔ AllHold (checks bytes)) ∧
      ∀ fault, Network.decode bytes = .error fault → Justified bytes fault := by
  have hfollows := Network.decode_follows bytes
  refine ⟨fun _ => hfollows.eq_error_iff, hfollows.exists_ok_iff, fun fault hfault => ?_⟩
  exact justified_of_checks (hfollows.eq_error_iff.mp hfault)

/-- A descriptor with several faults: two variables do not fit the buffer, a third one names a
buffer that is not there, and the function writes what it reads. -/
def manyFaults : Bytes :=
  Draft.encode
    { buffers := [4]
      variableTable :=
        [{ id := 1, dims := [2, 2], backing := .buffer 0 },
          { id := 2, dims := [3, 3], backing := .buffer 0 },
          { id := 3, dims := [5], backing := .buffer 0 },
          { id := 4, dims := [1], backing := .buffer 7 }]
      functions := [{ op := .relu, inputs := [0], outputs := [0] }]
      inputs := [0]
      outputs := [1] }

/-- Of these faults, that of the second variable is reported, with the nine elements that it has and
the four that its buffer has. -/
theorem Network.decode_manyFaults :
    Network.decode manyFaults = .error (.invalidVariable 1 (.bufferTooSmall 9 0 4)) ∧
      FirstFailing (checks manyFaults) (.invalidVariable 1 (.bufferTooSmall 9 0 4)) ∧
      Justified manyFaults (.invalidVariable 1 (.bufferTooSmall 9 0 4)) := by
  have hdecode : Network.decode manyFaults =
      .error (.invalidVariable 1 (.bufferTooSmall 9 0 4)) := by
    decide +kernel
  obtain ⟨hfirst, -, hjustified⟩ := Network.decode_reports_first manyFaults
  exact ⟨hdecode, (hfirst _).mp hdecode, hjustified _ hdecode⟩

end Inference
