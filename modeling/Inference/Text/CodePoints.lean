set_option autoImplicit false
set_option relaxedAutoImplicit false

/-!
# Sets of characters

A class of characters is written as the ranges of its code points, in ascending order. A search
stops at the first range that starts behind the character.

## Main definitions

* `Text.CodePoints` — ascending ranges of code points.
* `Text.CodePoints.contains` — membership of a character.
* `Text.CodePoints.size` — how many code points there are.

## Main results

* `Text.CodePoints.contains_eq_true_iff` — membership is membership in one of the ranges.
-/

namespace Inference

namespace Text

/-- Whether each range is one and starts behind the end of the range before it. -/
def isAscending : List (Nat × Nat) → Bool
  | [] => true
  | [(first, last)] => first ≤ last
  | (first, last) :: (next, stop) :: rest =>
    first ≤ last && last < next && isAscending ((next, stop) :: rest)

/-- Code points as inclusive ranges, each given by its first and its last one. -/
structure CodePoints where
  ranges : List (Nat × Nat)
  ascending : isAscending ranges = true := by decide +kernel

/-- Whether a code point is in one of some ascending ranges. -/
def inRanges (n : Nat) : List (Nat × Nat) → Bool
  | [] => false
  | (first, last) :: rest => first ≤ n && (n ≤ last || inRanges n rest)

namespace CodePoints

/-- Whether a character is in the set. -/
def contains (set : CodePoints) (c : Char) : Bool :=
  inRanges c.toNat set.ranges

/-- How many code points there are in the set. -/
def size (set : CodePoints) : Nat :=
  set.ranges.foldl (fun count (first, last) => count + (last + 1 - first)) 0

end CodePoints

/-! ## Membership -/

/-- What is left of ascending ranges behind the first one is ascending. -/
theorem isAscending_of_cons {range : Nat × Nat} {rest : List (Nat × Nat)}
    (h : isAscending (range :: rest) = true) : isAscending rest = true := by
  cases rest with
  | nil => rfl
  | cons next rest =>
    simp only [isAscending, Bool.and_eq_true] at h
    exact h.2

/-- All later ranges start behind the first one. -/
theorem lt_of_isAscending {range : Nat × Nat} {rest : List (Nat × Nat)}
    (h : isAscending (range :: rest) = true) : ∀ other ∈ rest, range.1 < other.1 := by
  induction rest generalizing range with
  | nil => simp
  | cons next rest ih =>
    have tail := isAscending_of_cons h
    simp only [isAscending, Bool.and_eq_true, decide_eq_true_eq] at h
    intro other member
    rcases List.mem_cons.1 member with rfl | member
    · omega
    · have := ih tail other member
      omega

/-- The search in ascending ranges misses none of them. -/
theorem inRanges_eq_true_iff {n : Nat} {ranges : List (Nat × Nat)}
    (h : isAscending ranges = true) :
    inRanges n ranges = true ↔ ∃ range ∈ ranges, range.1 ≤ n ∧ n ≤ range.2 := by
  induction ranges with
  | nil => simp [inRanges]
  | cons range rest ih =>
    have later := lt_of_isAscending h
    simp only [inRanges, Bool.and_eq_true, Bool.or_eq_true, decide_eq_true_eq,
      ih (isAscending_of_cons h), List.mem_cons, exists_eq_or_imp]
    constructor
    · rintro ⟨first, last | found⟩
      · exact .inl ⟨first, last⟩
      · exact .inr found
    · rintro (⟨first, last⟩ | ⟨other, member, first, last⟩)
      · exact ⟨first, .inl last⟩
      · exact ⟨Nat.le_trans (Nat.le_of_lt (later other member)) first,
          .inr ⟨other, member, first, last⟩⟩

/-- **Membership**: a character is in a set if its code point is in one of the ranges. -/
theorem CodePoints.contains_eq_true_iff (set : CodePoints) (c : Char) :
    set.contains c = true ↔ ∃ range ∈ set.ranges, range.1 ≤ c.toNat ∧ c.toNat ≤ range.2 :=
  inRanges_eq_true_iff set.ascending

end Text

end Inference
