import Inference.Proofs.Descriptor.Fields

set_option autoImplicit false
set_option relaxedAutoImplicit false

/-!
# The extent of a descriptor

A descriptor says in its header how far it reaches. Reading it looks at no byte behind that place,
and at the length of the input only to see whether everything before it is there. So bytes behind
a descriptor do not count, and a descriptor that is cut short is found to be so before anything
in it is followed.

## Main definitions

* `Format.extent` — how far a descriptor reaches by its own header.
* `Format.Complete` — a byte string that has all that decides how it is read.
* `Format.cutFault` — what is wrong with a descriptor of which only the first bytes are left.

## Main results

* `Network.decode_append`, `Network.decode_take` — bytes behind the extent do not count.
* `Network.decode_take_of_lt_extent` — a descriptor that is cut short is truncated.
* `Network.decode_within_extent` — what is read, and what is wrong, is decided within the extent.
-/

namespace Inference

open Format

/-! ## Bytes behind a front part -/

namespace Bytes

/-- A slice that ends in a front part is a slice of it. -/
lemma slice_append_left {front : Bytes} (back : Bytes) {start stop : Nat}
    (h : stop ≤ front.length) :
    slice (front ++ back) ⟨start, stop⟩ = slice front ⟨start, stop⟩ := by
  have hbehind : stop - start - (front.length - start) = 0 := by omega
  simp only [slice, Span.length, List.drop_append, List.take_append, List.length_drop, hbehind,
    List.take_zero, List.append_nil]

/-- A word that ends in a front part is a word of it. -/
lemma word_append_left {front : Bytes} (back : Bytes) {offset width : Nat}
    (h : offset + width ≤ front.length) :
    word (front ++ back) offset width = word front offset width := by
  rw [word, slice_append_left back h, word]

end Bytes

/-- A list reference that ends in a front part is one of it. -/
lemma ListRef.read_append {front : Bytes} (back : Bytes) {offset : Nat}
    (h : offset + 8 ≤ front.length) :
    ListRef.read (front ++ back) offset = ListRef.read front offset := by
  have hcount : offset + 4 ≤ front.length := by omega
  have hblock : offset + 4 + 4 ≤ front.length := by omega
  simp only [ListRef.read, Bytes.signedWord, Bytes.word_append_left back hcount,
    Bytes.word_append_left back hblock]

/-- The fields of the fixed part are those of a front part that has all of it. -/
lemma Header.read_append {front : Bytes} (back : Bytes) (h : 56 ≤ front.length) :
    Header.read (front ++ back) = Header.read front := by
  have hword : ∀ offset, offset + 4 ≤ 56 →
      Bytes.word (front ++ back) offset 4 = front.word offset 4 :=
    fun offset hle => Bytes.word_append_left back (by omega)
  have hlist : ∀ offset, offset + 8 ≤ 56 →
      ListRef.read (front ++ back) offset = ListRef.read front offset :=
    fun offset hle => ListRef.read_append back (by omega)
  simp only [Header.read, hword, hlist, Nat.reduceAdd, Nat.reduceLeDiff]

/-! ## Extents -/

/-- Whether a fault is that the input ends too early. -/
def DescriptorFault.IsTruncation : DescriptorFault → Prop
  | .truncated _ _ _ => True
  | _ => False

namespace Format

/-- How far a descriptor reaches by its own header: over the header, the block offsets and the
data region. -/
def extent (bytes : Bytes) : Nat :=
  56 + 4 * blockCount bytes + dataSize bytes

/-- A byte string that has all that decides how it is read: the header, and behind the supported
version everything that the header declares. -/
structure Complete (bytes : Bytes) : Prop where
  header : 56 ≤ bytes.length
  reaches : bytes.word 0 4 = descriptorVersion → extent bytes ≤ bytes.length

/-- What is wrong with a descriptor of which only the first `length` bytes are left: the first of
its sections that is not there in full. -/
def cutFault (bytes : Bytes) (length : Nat) : DescriptorFault :=
  if length < 56 then .truncated .header 56 length
  else if length < dataStart bytes then .truncated .offsetTable (dataStart bytes) length
  else .truncated .dataRegion (extent bytes) length

/-- A descriptor that is cut short ends too early. -/
lemma isTruncation_cutFault (bytes : Bytes) (length : Nat) :
    (cutFault bytes length).IsTruncation := by
  unfold cutFault
  split
  · trivial
  · split <;> trivial

/-- A byte string whose sections fit has all that decides how it is read. -/
lemma complete_of_framed {bytes : Bytes} (h : Framed bytes) : Complete bytes :=
  ⟨h.header, fun _ => h.extent⟩

section

variable {bytes front : Bytes} {length : Nat}

/-- The data region starts where the header says, so a front part that has the header says the
same. -/
lemma dataStart_append (back : Bytes) (h : 56 ≤ front.length) :
    dataStart (front ++ back) = dataStart front := by
  simp only [dataStart, blockCount]
  rw [Bytes.word_append_left back (by omega)]

/-- The extent is declared in the header, so a front part that has the header declares the
same. -/
lemma extent_append (back : Bytes) (h : 56 ≤ front.length) :
    extent (front ++ back) = extent front := by
  simp only [extent, blockCount, dataSize]
  rw [Bytes.word_append_left back (by omega), Bytes.word_append_left back (by omega)]

/-- What is left of a byte string that was cut behind its header declares the same extent. -/
lemma extent_take (h : 56 ≤ (bytes.take length).length) :
    extent (bytes.take length) = extent bytes := by
  rw [← extent_append (bytes.drop length) h, List.take_append_drop]

/-- What is left of a descriptor that was cut short behind its header has the fault of the cut. -/
lemma cutFault_take (h : 56 ≤ (bytes.take length).length) (count : Nat) :
    cutFault (bytes.take length) count = cutFault bytes count := by
  simp only [cutFault]
  rw [← dataStart_append (bytes.drop length) h, ← extent_append (bytes.drop length) h,
    List.take_append_drop]

/-- A byte string that is cut behind its extent still has all that decides how it is read. -/
lemma Complete.take (h : Complete bytes) (hlength : extent bytes ≤ length) :
    Complete (bytes.take length) := by
  have hlong : 56 ≤ (bytes.take length).length := by
    have hheader := h.header
    rw [List.length_take]
    unfold Format.extent at hlength
    omega
  refine ⟨hlong, fun hversion => ?_⟩
  rw [Bytes.word_take bytes (by rw [List.length_take] at hlong; omega)] at hversion
  rw [extent_take hlong, List.length_take]
  exact Nat.le_min.mpr ⟨hlength, h.reaches hversion⟩

end

end Format

/-! ## Reading within the extent -/

section

variable {bytes front : Bytes}

namespace Header

/-- Nothing is read of a byte string that is shorter than the header. -/
lemma decode_of_length_lt (h : bytes.length < 56) :
    decode bytes = .error (cutFault bytes bytes.length) := by
  rw [decode, cutFault, if_pos h]
  exact if_pos h

/-- What is read behind a header that is there in full: nothing of another version, and nothing
unless all is there up to the extent. -/
lemma decode_of_le_length (h : 56 ≤ bytes.length) :
    decode bytes =
      if bytes.word 0 4 ≠ descriptorVersion then .error (.unsupportedVersion (bytes.word 0 4))
      else if bytes.length < extent bytes then .error (cutFault bytes bytes.length)
      else (BlockTable.ofOffsets (bytes.slice ⟨56, dataStart bytes⟩).words
        (bytes.slice ⟨dataStart bytes, extent bytes⟩)).map (read bytes, ·) := by
  have hheader : ¬bytes.length < byteSize := Nat.not_lt.mpr h
  have hversion : (read bytes).version = bytes.word 0 4 := rfl
  have hstart : (read bytes).tableEnd = dataStart bytes := rfl
  have hend : (read bytes).dataEnd = extent bytes := rfl
  have hle : dataStart bytes ≤ extent bytes := Nat.le_add_right _ _
  simp only [decode, if_neg hheader, hversion, hstart, hend, cutFault, if_neg (Nat.not_lt.mpr h)]
  by_cases htable : bytes.length < dataStart bytes
  · rw [if_pos htable, if_pos htable, if_pos (Nat.lt_of_lt_of_le htable hle)]
  · rw [if_neg htable, if_neg htable]
    rfl

/-- The header and the blocks are read from a front part that has all that decides about
them. -/
lemma decode_append (h : Complete front) (back : Bytes) :
    decode (front ++ back) = decode front := by
  have hheader := h.header
  have hlonger : front.length ≤ (front ++ back).length := by simp
  rw [decode_of_le_length hheader, decode_of_le_length (by omega), read_append back hheader,
    Bytes.word_append_left back (by omega), dataStart_append back hheader,
    extent_append back hheader]
  by_cases hversion : front.word 0 4 = descriptorVersion
  · -- With the supported version, both byte strings reach as far as the header says.
    have hextent := h.reaches hversion
    have hstart : dataStart front ≤ extent front := Nat.le_add_right _ _
    rw [if_neg (not_not_intro hversion), if_neg (not_not_intro hversion), if_neg (by omega),
      if_neg (by omega), Bytes.slice_append_left back (by omega),
      Bytes.slice_append_left back hextent]
  · rw [if_pos hversion, if_pos hversion]

end Header

namespace Network

/-- Bytes behind a byte string that has all that decides how it is read do not count. -/
theorem decode_append (h : Complete front) (back : Bytes) :
    decode (front ++ back) = decode front := by
  unfold decode
  rw [Header.decode_append h]

/-- A byte string that is cut behind its extent is read as before. -/
theorem decode_take (h : Complete bytes) {length : Nat} (hlength : extent bytes ≤ length) :
    decode (bytes.take length) = decode bytes := by
  have hdecode := decode_append (h.take hlength) (bytes.drop length)
  rw [List.take_append_drop] at hdecode
  exact hdecode.symm

/-- A fault of the header is the fault of the whole. -/
lemma decode_eq_error_of_header {fault : DescriptorFault}
    (h : Header.decode bytes = .error fault) : decode bytes = .error fault := by
  unfold decode
  rw [h]
  rfl

/-- A byte string without all that decides how it is read is refused as truncated. -/
lemma exists_truncation_of_not_complete (h : ¬Complete bytes) :
    ∃ fault : DescriptorFault, fault.IsTruncation ∧ decode bytes = .error fault := by
  refine ⟨_, isTruncation_cutFault bytes bytes.length, decode_eq_error_of_header ?_⟩
  by_cases hheader : bytes.length < 56
  · exact Header.decode_of_length_lt hheader
  · have hlong : 56 ≤ bytes.length := Nat.not_lt.mp hheader
    have hdeclares : bytes.word 0 4 = descriptorVersion ∧ bytes.length < extent bytes := by
      by_contra hreaches
      exact h ⟨hlong, fun hversion => by_contra fun hshort =>
        hreaches ⟨hversion, Nat.not_le.mp hshort⟩⟩
    rw [Header.decode_of_le_length hlong, if_neg (not_not_intro hdeclares.1),
      if_pos hdeclares.2]

/-- A descriptor that is cut short is truncated in the first section that is not there in
full. -/
theorem decode_take_of_lt_extent (h : Framed bytes) {length : Nat}
    (hlength : length < extent bytes) :
    decode (bytes.take length) = .error (cutFault bytes length) := by
  apply decode_eq_error_of_header
  have hleft : (bytes.take length).length = length :=
    List.length_take_of_le (Nat.le_trans (Nat.le_of_lt hlength) h.extent)
  by_cases hheader : length < 56
  · rw [Header.decode_of_length_lt (by omega), hleft]
    simp only [cutFault, if_pos hheader]
  · have hlong : 56 ≤ (bytes.take length).length := by omega
    have hversion : Bytes.word (bytes.take length) 0 4 = descriptorVersion := by
      rw [Bytes.word_take bytes (by omega)]
      exact h.version
    rw [Header.decode_of_le_length hlong, if_neg (not_not_intro hversion), extent_take hlong,
      hleft, if_pos hlength, cutFault_take hlong]

end Network

end

/-- **Extent**: how a byte string is read is decided within the extent that its header declares.
What was accepted reaches as far as that, gives the same network — its tables and the data of its
parameters — with any bytes behind it and when it is cut anywhere behind its extent, and is
truncated when it is cut before. What was refused for another reason than being truncated is
refused for the same reason with any bytes behind it.

**Proof sketch.** Reading looks at the bytes only to read the header and the blocks, and these are
the same for every byte string that begins with what is there up to the extent
(`Header.decode_append`). What was accepted is there up to its extent, and so is what was refused
without being truncated (`Network.exists_truncation_of_not_complete`). -/
theorem Network.decode_within_extent (bytes : Bytes) :
    (∀ network, Network.decode bytes = .ok network →
      extent bytes ≤ bytes.length ∧
      (∀ trailing, Network.decode (bytes ++ trailing) = .ok network) ∧
      (∀ length, extent bytes ≤ length → Network.decode (bytes.take length) = .ok network) ∧
      ∀ length < extent bytes,
        (cutFault bytes length).IsTruncation ∧
          Network.decode (bytes.take length) = .error (cutFault bytes length)) ∧
    ∀ fault, Network.decode bytes = .error fault → ¬fault.IsTruncation →
      ∀ trailing, Network.decode (bytes ++ trailing) = .error fault := by
  constructor
  · intro network hdecode
    obtain ⟨hformed, -⟩ := Network.decode_eq_ok_iff.mp hdecode
    have hcomplete := complete_of_framed hformed.toFramed
    refine ⟨hformed.extent, fun trailing => ?_, fun length hlength => ?_, fun length hlength => ?_⟩
    · rw [Network.decode_append hcomplete, hdecode]
    · rw [Network.decode_take hcomplete hlength, hdecode]
    · exact ⟨isTruncation_cutFault bytes length,
        Network.decode_take_of_lt_extent hformed.toFramed hlength⟩
  · intro fault hdecode hother trailing
    have hcomplete : Complete bytes := by
      by_contra hincomplete
      obtain ⟨found, htruncation, hfound⟩ :=
        Network.exists_truncation_of_not_complete hincomplete
      rw [hdecode, Except.error.injEq] at hfound
      exact hother (hfound ▸ htruncation)
    rw [Network.decode_append hcomplete, hdecode]

/-- A descriptor is read with bytes behind it and not without its last byte, and bytes of another
version are refused as such with more bytes behind them. -/
theorem Network.decode_within_extent_sharedBlocks :
    Network.decode (sharedBlocks ++ [1, 2, 3]) = .ok (Format.network sharedBlocks) ∧
      Network.decode (sharedBlocks.take 164) = .error (.truncated .dataRegion 165 164) ∧
      Network.decode (Bytes.zeros 56 ++ [1]) = .error (.unsupportedVersion 0) := by
  have hdecode : Network.decode sharedBlocks = .ok (Format.network sharedBlocks) := by
    decide +kernel
  have hrefused : Network.decode (Bytes.zeros 56) = .error (.unsupportedVersion 0) := by
    decide +kernel
  obtain ⟨-, happend, -, hcut⟩ := (Network.decode_within_extent sharedBlocks).1 _ hdecode
  exact ⟨happend [1, 2, 3], (hcut 164 (by decide +kernel)).2,
    (Network.decode_within_extent (Bytes.zeros 56)).2 _ hrefused id [1]⟩

end Inference
