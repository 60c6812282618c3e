import Inference.Bytes
import Mathlib.Tactic.Common
import Mathlib.Data.List.Basic

set_option autoImplicit false
set_option relaxedAutoImplicit false

/-!
# Words at positions

Fields and tables of words are read in two ways: one word at a position, and a whole run of words
at once. This file shows that both agree, and how positions move when bytes are cut off or put in
front.

## Main results

* `Bytes.words_eq_map`, `Bytes.signedWords_eq_map` — a run of words is the words at the multiples
  of four.
* `Bytes.slice_slice` — a slice of a slice is a slice.
* `Bytes.word_slice`, `Bytes.word_take` — words inside a slice and inside a front part.
* `Bytes.word_ofNatLE`, `Bytes.signedWord_ofInt32` — words that were written are read back.
-/

namespace Inference.Bytes

/-! ## Slices -/

/-- A slice that ends inside the bytes has the length of its range. -/
lemma length_slice {bytes : Bytes} {span : Span} (h : span.stop ≤ bytes.length) :
    (bytes.slice span).length = span.length := by
  simp only [slice, Span.length, List.length_take, List.length_drop]
  omega

/-- A slice of a slice is the slice at the shifted positions. -/
lemma slice_slice (bytes : Bytes) (start stop : Nat) (inner : Span)
    (h : inner.stop ≤ stop - start) :
    (bytes.slice ⟨start, stop⟩).slice inner =
      bytes.slice ⟨start + inner.start, start + inner.stop⟩ := by
  simp only [slice, Span.length, List.drop_take, List.take_take, List.drop_drop]
  congr 1
  omega

/-- A word is the number of the bytes from its position on, as many as it has. -/
lemma word_eq (bytes : Bytes) (offset width : Nat) :
    bytes.word offset width = toNatLE ((bytes.drop offset).take width) := by
  simp [word, slice, Span.length]

/-- A word inside a front part is the word at the same position. -/
lemma word_take (bytes : Bytes) {offset width count : Nat} (h : offset + width ≤ count) :
    word (bytes.take count) offset width = bytes.word offset width := by
  rw [word_eq, word_eq, List.drop_take, List.take_take]
  congr 2
  omega

/-- A word of a back part is the word at the shifted position. -/
lemma word_drop (bytes : Bytes) (start offset width : Nat) :
    word (bytes.drop start) offset width = bytes.word (start + offset) width := by
  rw [word_eq, word_eq, List.drop_drop]

/-- A word inside a slice is the word at the shifted position. -/
lemma word_slice (bytes : Bytes) {start stop offset width : Nat}
    (h : start + offset + width ≤ stop) :
    word (bytes.slice ⟨start, stop⟩) offset width = bytes.word (start + offset) width := by
  rw [slice, word_take _ (by simp only [Span.length]; omega), word_drop]

/-! ## Runs of words -/

/-- A run of words is the words at the multiples of four. -/
theorem words_eq_map (bytes : Bytes) :
    bytes.words = (List.range (bytes.length / 4)).map fun k => bytes.word (4 * k) 4 := by
  fun_induction words bytes with
  | case1 b₀ b₁ b₂ b₃ rest ih =>
    have hlen : (b₀ :: b₁ :: b₂ :: b₃ :: rest).length / 4 = rest.length / 4 + 1 := by
      simp only [List.length_cons]
      omega
    rw [hlen, List.range_succ_eq_map, List.map_cons, List.map_map, ih]
    congr 1
    apply List.map_congr_left
    intro k _
    rw [Function.comp_apply, Nat.mul_succ, Nat.add_comm, ← word_drop]
    rfl
  | case2 bytes hshort =>
    have hlen : bytes.length / 4 = 0 := by
      match bytes, hshort with
      | [], _ | [_], _ | [_, _], _ | [_, _, _], _ => simp
      | b₀ :: b₁ :: b₂ :: b₃ :: rest, hshort => exact absurd rfl (hshort b₀ b₁ b₂ b₃ rest)
    rw [hlen]
    rfl

/-- Signed words are the words read as two's complement. -/
lemma signedWords_eq_map_words (bytes : Bytes) : bytes.signedWords = bytes.words.map signed32 := by
  fun_induction words bytes with
  | case1 b₀ b₁ b₂ b₃ rest ih => simp [signedWords, ih]
  | case2 bytes hshort =>
    rw [signedWords]
    · rfl
    · exact hshort

/-- A run of signed words is the signed words at the multiples of four. -/
theorem signedWords_eq_map (bytes : Bytes) :
    bytes.signedWords = (List.range (bytes.length / 4)).map fun k => bytes.signedWord (4 * k) := by
  simp only [signedWords_eq_map_words, words_eq_map, List.map_map, Function.comp_def, signedWord]

/-- The signed words of a front part of whole words, by their positions in the bytes. -/
theorem signedWords_take (bytes : Bytes) {count : Nat} (h : 4 * count ≤ bytes.length) :
    signedWords (bytes.take (4 * count)) =
      (List.range count).map fun k => bytes.signedWord (4 * k) := by
  have hlen : (bytes.take (4 * count)).length / 4 = count := by
    rw [List.length_take]
    omega
  rw [signedWords_eq_map, hlen]
  apply List.map_congr_left
  intro k hk
  rw [List.mem_range] at hk
  have hword : word (bytes.take (4 * count)) (4 * k) 4 = bytes.word (4 * k) 4 :=
    word_take bytes (by omega)
  simp only [signedWord, hword]

/-! ## Words that were written -/

/-- Four bytes hold the numbers below 2 to the 32. -/
lemma capacity_four : capacity 4 = 0x100000000 := rfl

/-- Behind a front part, words stand at their position less its length. -/
lemma word_append_right {front : Bytes} (back : Bytes) {offset width : Nat}
    (h : front.length ≤ offset) :
    word (front ++ back) offset width = word back (offset - front.length) width := by
  rw [word_eq, word_eq, List.drop_append, List.drop_eq_nil_of_le h, List.nil_append]

/-- A word at the front is read back if it fits its width. -/
lemma word_ofNatLE {width n : Nat} (h : n < capacity width) (rest : Bytes) :
    word (ofNatLE width n ++ rest) 0 width = n := by
  have hfront : (ofNatLE width n ++ rest).take width = ofNatLE width n := by
    rw [List.take_append_of_le_length (by simp), List.take_of_length_le (by simp)]
  rw [word_eq, List.drop_zero, hfront, toNatLE_ofNatLE width n h]

/-- A slice behind a front part is the slice of the rest. -/
lemma slice_append_right (front back : Bytes) (start stop : Nat) :
    slice (front ++ back) ⟨front.length + start, front.length + stop⟩ =
      slice back ⟨start, stop⟩ := by
  simp only [slice, Span.length, List.drop_append, Nat.add_sub_add_left, Nat.add_sub_cancel_left]
  rw [List.drop_eq_nil_of_le (Nat.le_add_right _ _), List.nil_append]

/-- Two's complement leaves a signed number of 32 bits as it is. -/
lemma bmod_eq_self {value : Int} (hlow : -0x80000000 ≤ value) (hhigh : value < 0x80000000) :
    Int.bmod value 0x100000000 = value := by
  have hdown : -((0x100000000 : Nat) : Int) ≤ value * 2 := by omega
  have hup : value * 2 < ((0x100000000 : Nat) : Int) := by omega
  exact Int.bmod_eq_of_le_mul_two hdown hup

/-- Two's complement leaves a number below half the range as it is. -/
lemma signed32_natCast {n : Nat} (h : n < 0x80000000) : signed32 n = n := by
  unfold signed32
  exact bmod_eq_self (by omega) (by omega)

/-- Two's complement brings a signed number of 32 bits back from its low bits. -/
lemma signed32_emod {value : Int} (hlow : -0x80000000 ≤ value) (hhigh : value < 0x80000000) :
    signed32 (value % 0x100000000).toNat = value := by
  have hpos : (0 : Int) ≤ value % 0x100000000 := Int.emod_nonneg _ (by decide)
  unfold signed32
  rw [Int.toNat_of_nonneg hpos]
  exact (Int.emod_bmod value 0x100000000).trans (bmod_eq_self hlow hhigh)

/-- A signed number of 32 bits at the front is read back. -/
lemma signedWord_ofInt32 {value : Int} (hlow : -0x80000000 ≤ value) (hhigh : value < 0x80000000)
    (rest : Bytes) : signedWord (ofInt32 value ++ rest) 0 = value := by
  have hfits : (value % 0x100000000).toNat < capacity 4 := by
    rw [capacity_four]
    omega
  rw [signedWord, ofInt32, word_ofNatLE hfits, signed32_emod hlow hhigh]

end Inference.Bytes
