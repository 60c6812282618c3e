set_option autoImplicit false
set_option relaxedAutoImplicit false

/-!
# Byte strings and little-endian words

Descriptors and variable contents are lists of bytes. This file holds the words they are made
of, the slices that tables point at, and the one way in which contents are replaced: in place,
never changing a length.

## Main definitions

* `Bytes` — a byte string.
* `Bytes.toNatLE`, `Bytes.ofNatLE` — the little-endian number of a byte string and the bytes of a
  number.
* `Bytes.capacity` — how many numbers a byte string of a given length can stand for.
* `Span`, `Bytes.slice` — a half-open range of positions and what it selects.
* `Bytes.wordAt?`, `Bytes.signedAt?` — a field at an offset, absent when it does not fit.
* `Bytes.word`, `Bytes.signedWord` — the same field where it is known to fit.
* `Bytes.overwrite` — new contents laid over old ones, as far as both reach.

## Main results

* `Bytes.toNatLE_ofNatLE`, `Bytes.ofNatLE_toNatLE` — words read back.
* `Bytes.length_overwrite` — laying contents over others keeps the length.
-/

namespace Inference

/-- A byte string. -/
abbrev Bytes := List UInt8

/-- The bound that every count and size of the machine stays below: sizes are 64-bit words. -/
def wordLimit : Nat := 0x10000000000000000

/-- A half-open range of positions, from `start` up to but not including `stop`. -/
structure Span where
  start : Nat
  stop : Nat
deriving DecidableEq

/-- Number of positions in a range. -/
def Span.length (span : Span) : Nat :=
  span.stop - span.start

namespace Bytes

/-! ## Little-endian words -/

/-- The number whose base-256 digits, least significant first, are the bytes. -/
def toNatLE : Bytes → Nat
  | [] => 0
  | byte :: rest => byte.toNat + 256 * toNatLE rest

/-- The `width` low bytes of a number, least significant first. -/
def ofNatLE : (width : Nat) → Nat → Bytes
  | 0, _ => []
  | width + 1, n => UInt8.ofNat (n % 256) :: ofNatLE width (n / 256)

/-- The first number that does not fit `width` bytes. -/
def capacity : (width : Nat) → Nat
  | 0 => 1
  | width + 1 => 256 * capacity width

/-- The two's-complement reading of a 32-bit word. -/
def signed32 (word : Nat) : Int :=
  Int.bmod word 0x100000000

/-- The four bytes of an integer's low 32 bits. -/
def ofInt32 (value : Int) : Bytes :=
  ofNatLE 4 (value % 0x100000000).toNat

@[simp]
theorem length_ofNatLE (width n : Nat) : (ofNatLE width n).length = width := by
  induction width generalizing n with
  | zero => rfl
  | succ width ih => simp [ofNatLE, ih]

/-- A number that fits `width` bytes is read back from them. -/
theorem toNatLE_ofNatLE (width n : Nat) (h : n < capacity width) :
    toNatLE (ofNatLE width n) = n := by
  induction width generalizing n with
  | zero =>
    have hn : n = 0 := by
      simp only [capacity] at h
      omega
    simp [ofNatLE, toNatLE, hn]
  | succ width ih =>
    have hq : n / 256 < capacity width := by
      simp only [capacity] at h
      omega
    simp only [ofNatLE, toNatLE, ih _ hq, UInt8.toNat_ofNat']
    omega

/-- A byte string is the little-endian form of its own number. -/
theorem ofNatLE_toNatLE (bytes : Bytes) : ofNatLE bytes.length (toNatLE bytes) = bytes := by
  induction bytes with
  | nil => rfl
  | cons byte rest ih =>
    have hb : byte.toNat < 256 := byte.toNat_lt
    have hm : (byte.toNat + 256 * toNatLE rest) % 256 = byte.toNat := by omega
    have hd : (byte.toNat + 256 * toNatLE rest) / 256 = toNatLE rest := by omega
    simp only [List.length_cons, ofNatLE, toNatLE, hm, hd, ih, UInt8.ofNat_toNat]

/-! ## Slices and fields -/

/-- The bytes at the positions of a range, as far as they exist. -/
def slice (bytes : Bytes) (span : Span) : Bytes :=
  (bytes.drop span.start).take span.length

/-- The bytes at the positions of a range, absent unless all of them exist. -/
def slice? (bytes : Bytes) (span : Span) : Option Bytes :=
  if span.start ≤ span.stop ∧ span.stop ≤ bytes.length then some (bytes.slice span) else none

/-- The `width`-byte word at `offset`, absent unless all of it exists. -/
def wordAt? (bytes : Bytes) (offset width : Nat) : Option Nat :=
  (bytes.slice? ⟨offset, offset + width⟩).map toNatLE

/-- The signed 32-bit word at `offset`, absent unless all of it exists. -/
def signedAt? (bytes : Bytes) (offset : Nat) : Option Int :=
  (bytes.wordAt? offset 4).map signed32

/-- The `width`-byte word at `offset` of a byte string that is known to reach that far. -/
def word (bytes : Bytes) (offset width : Nat) : Nat :=
  toNatLE (bytes.slice ⟨offset, offset + width⟩)

/-- The signed 32-bit word at `offset` of a byte string that is known to reach that far. -/
def signedWord (bytes : Bytes) (offset : Nat) : Int :=
  signed32 (bytes.word offset 4)

/-- The signed 32-bit words a byte string is made of; bytes left over at the end are dropped. -/
def signedWords : Bytes → List Int
  | b₀ :: b₁ :: b₂ :: b₃ :: rest => signed32 (toNatLE [b₀, b₁, b₂, b₃]) :: signedWords rest
  | _ => []

/-- The unsigned 32-bit words a byte string is made of; bytes left over at the end are dropped. -/
def words : Bytes → List Nat
  | b₀ :: b₁ :: b₂ :: b₃ :: rest => toNatLE [b₀, b₁, b₂, b₃] :: words rest
  | _ => []

/-! ## Replacing contents -/

/-- `new` laid over the start of `old`: as many bytes as both have are replaced. -/
def overwrite (old new : Bytes) : Bytes :=
  new.take old.length ++ old.drop new.length

/-- `new` laid over `old` from position `offset` on. -/
def overwriteAt (old : Bytes) (offset : Nat) (new : Bytes) : Bytes :=
  old.take offset ++ overwrite (old.drop offset) new

/-- Byte strings with new contents laid over each of them, in order. Those that are left over on
one side are of no effect on the other. -/
def overwriteAll : List Bytes → List Bytes → List Bytes
  | old :: olds, new :: news => overwrite old new :: overwriteAll olds news
  | olds, _ => olds

/-- A byte string of zeros. -/
def zeros (length : Nat) : Bytes :=
  List.replicate length 0

@[simp]
theorem length_overwrite (old new : Bytes) : (overwrite old new).length = old.length := by
  simp only [overwrite, List.length_append, List.length_take, List.length_drop]
  omega

@[simp]
theorem length_overwriteAt (old : Bytes) (offset : Nat) (new : Bytes) :
    (overwriteAt old offset new).length = old.length := by
  simp only [overwriteAt, List.length_append, List.length_take, length_overwrite,
    List.length_drop]
  omega

/-- Contents of the full length replace everything. -/
theorem overwrite_of_length_eq {old new : Bytes} (h : new.length = old.length) :
    overwrite old new = new := by
  simp [overwrite, ← h]

end Bytes

end Inference
