import Inference.Proofs.Kernel.Accumulation

set_option autoImplicit false
set_option relaxedAutoImplicit false

/-!
# Softmax line by line

Softmax takes the lines along an axis. An element of a flat list is at a place `(o, j, i)`: in block
`o`, as element `j` of line `i` of this block. The transform works on all lines of a block side by
side, a row at a time; this file shows that every line of the result is nevertheless the softmax of
one line of the input, taken from its first to its last element, for every interpretation of the
arithmetic.

## Main definitions

* `Kernel.place`, `Kernel.Line` — the position of a place, and the elements of a line.
* `Kernel.softmaxLine` — the softmax of one line.
* `Kernel.softmaxBlocks` — the softmax of all blocks.

## Main results

* `Kernel.existsUnique_place` — every position is at one place.
* `Kernel.column_softmaxRows` — a column of the softmax of a block.
* `Kernel.line_softmaxBlocks` — a line of the result.
-/

namespace Inference

namespace Kernel

/-! ## Places -/

/-- The position of element `j` of line `i` in block `o`. -/
def place (size inner o j i : Nat) : Nat :=
  o * size * inner + j * inner + i

variable {outer size inner : Nat}

/-- A line is counted within its row, and a row over all blocks. -/
lemma place_eq (o j i : Nat) : place size inner o j i = (o * size + j) * inner + i := by
  rw [place, Nat.add_mul]

/-- A place of a block is counted from where the block starts. -/
lemma place_eq_add (o j i : Nat) :
    place size inner o j i = o * (size * inner) + (j * inner + i) := by
  rw [place, Nat.mul_assoc, Nat.add_assoc]

/-- A number of full rows and a rest less than a row are determined by their sum. -/
lemma mul_add_inj {width a b r t : Nat} (hr : r < width) (ht : t < width)
    (h : a * width + r = b * width + t) : a = b ∧ r = t := by
  have hrest : r = t := by
    have hmod := congrArg (· % width) h
    simpa [Nat.mul_add_mod', Nat.mod_eq_of_lt hr, Nat.mod_eq_of_lt ht] using hmod
  subst hrest
  exact ⟨Nat.eq_of_mul_eq_mul_right (by omega) (Nat.add_right_cancel h), rfl⟩

/-- Different places have different positions. -/
lemma place_inj {o j i o' j' i' : Nat} (hj : j < size) (hi : i < inner) (hj' : j' < size)
    (hi' : i' < inner) (h : place size inner o j i = place size inner o' j' i') :
    o = o' ∧ j = j' ∧ i = i' := by
  rw [place_eq, place_eq] at h
  obtain ⟨hrow, hline⟩ := mul_add_inj hi hi' h
  obtain ⟨hblock, helement⟩ := mul_add_inj hj hj' hrow
  exact ⟨hblock, helement, hline⟩

/-- A position in a row is one of the elements of as many rows. -/
lemma mul_add_lt {width a b r : Nat} (ha : a < b) (hr : r < width) : a * width + r < b * width := by
  have hle : (a + 1) * width ≤ b * width := Nat.mul_le_mul_right _ ha
  rw [Nat.succ_mul] at hle
  omega

/-- A place is one of the elements of the blocks. -/
lemma place_lt {o j i : Nat} (ho : o < outer) (hj : j < size) (hi : i < inner) :
    place size inner o j i < outer * (size * inner) := by
  rw [place_eq, ← Nat.mul_assoc]
  exact mul_add_lt (mul_add_lt ho hj) hi

/-- Every position is at a place. -/
lemma exists_place {position : Nat} (h : position < outer * (size * inner)) :
    ∃ o < outer, ∃ j < size, ∃ i < inner, place size inner o j i = position := by
  have hinner : 0 < inner := by
    rcases Nat.eq_zero_or_pos inner with rfl | hpos
    · simp at h
    · exact hpos
  have hsize : 0 < size := by
    rcases Nat.eq_zero_or_pos size with rfl | hpos
    · simp at h
    · exact hpos
  rw [← Nat.mul_assoc] at h
  have hrow : position / inner < outer * size := (Nat.div_lt_iff_lt_mul hinner).mpr h
  refine ⟨position / inner / size, (Nat.div_lt_iff_lt_mul hsize).mpr hrow,
    position / inner % size, Nat.mod_lt _ hsize, position % inner, Nat.mod_lt _ hinner, ?_⟩
  rw [place_eq, Nat.mul_comm _ size, Nat.div_add_mod, Nat.mul_comm, Nat.div_add_mod]

/-- **Places**: the places are numbered without gaps, each once. -/
theorem existsUnique_place {position : Nat} (h : position < outer * (size * inner)) :
    ∃! at' : Nat × Nat × Nat, (at'.1 < outer ∧ at'.2.1 < size ∧ at'.2.2 < inner) ∧
      place size inner at'.1 at'.2.1 at'.2.2 = position := by
  obtain ⟨o, ho, j, hj, i, hi, hplace⟩ := exists_place h
  refine ⟨(o, j, i), ⟨⟨ho, hj, hi⟩, hplace⟩, ?_⟩
  rintro ⟨o', j', i'⟩ ⟨⟨-, hj', hi'⟩, hplace'⟩
  obtain ⟨rfl, rfl, rfl⟩ := place_inj hj' hi' hj hi (hplace'.trans hplace.symm)
  rfl

/-! ## Lines -/

variable {α : Type}

/-- The elements of line `i` of block `o`, from the first to the last. -/
structure Line (elements : List α) (size inner o i : Nat) (content : List α) : Prop where
  length_eq : content.length = size
  element : ∀ j < size, ∃ x, elements[place size inner o j i]? = some x ∧ content[j]? = some x

/-- An element of a line, by its position on the line or in the whole list. -/
lemma Line.getElem?_eq {elements content : List α} {o i j : Nat}
    (h : Line elements size inner o i content) (hj : j < size) :
    content[j]? = elements[place size inner o j i]? := by
  obtain ⟨x, helement, hline⟩ := h.element j hj
  rw [helement, hline]

/-- A line is determined by the elements at its places. -/
lemma Line.eq_of_agree {elements other content another : List α} {o i : Nat}
    (h : Line elements size inner o i content) (h' : Line other size inner o i another)
    (hagree : ∀ j < size, elements[place size inner o j i]? = other[place size inner o j i]?) :
    content = another := by
  apply List.ext_getElem?
  intro j
  rcases Nat.lt_or_ge j size with hj | hge
  · rw [h.getElem?_eq hj, h'.getElem?_eq hj, hagree j hj]
  · rw [List.getElem?_eq_none (by rw [h.length_eq]; exact hge),
      List.getElem?_eq_none (by rw [h'.length_eq]; exact hge)]

/-- The elements of rows at one position, from the first row to the last. -/
def column (table : List (List α)) (i : Nat) : List α :=
  table.filterMap fun row => row[i]?

/-- The first row comes first in a column. -/
lemma column_cons {row : List α} {table : List (List α)} {i : Nat} (hi : i < row.length) :
    column (row :: table) i = row[i] :: column table i := by
  simp [column, hi]

/-- An element of a column is taken from the row of its position. -/
lemma getElem?_column {table : List (List α)} {width i : Nat}
    (h : ∀ row ∈ table, row.length = width) (hi : i < width) (j : Nat) :
    (column table i)[j]? = table[j]?.bind fun row => row[i]? := by
  induction table generalizing j with
  | nil => rfl
  | cons row table ih =>
    rw [List.forall_mem_cons] at h
    rw [column_cons (by omega)]
    cases j with
    | zero => simp [h.1, hi]
    | succ j => exact ih h.2 j

/-- A column has an element of every row. -/
lemma length_column {table : List (List α)} {width i : Nat}
    (h : ∀ row ∈ table, row.length = width) (hi : i < width) :
    (column table i).length = table.length := by
  induction table with
  | nil => rfl
  | cons row table ih =>
    rw [List.forall_mem_cons] at h
    rw [column_cons (by omega), List.length_cons, List.length_cons, ih h.2]

/-- Rows that are worked on with one row are worked on in columns. -/
lemma column_map_zipWith {β γ : Type} (g : β → α → γ) {start : List β} {x : β} {i : Nat}
    (hstart : start[i]? = some x) (table : List (List α)) :
    column (table.map (List.zipWith g start)) i = (column table i).map (g x) := by
  rw [column, column, List.filterMap_map, List.map_filterMap]
  congr 1
  funext row
  simp only [Function.comp, List.getElem?_zipWith, hstart]
  cases row[i]? <;> rfl

/-- Rows that are joined from the first to the last are joined in columns. -/
lemma getElem?_foldl_zipWith {β : Type} (f : β → α → β) {table : List (List α)} {width i : Nat}
    {start : List β} {x : β} (h : ∀ row ∈ table, row.length = width) (hi : i < width)
    (hstart : start[i]? = some x) :
    (table.foldl (List.zipWith f) start)[i]? = some ((column table i).foldl f x) := by
  induction table generalizing start x with
  | nil => exact hstart
  | cons row table ih =>
    rw [List.forall_mem_cons] at h
    have hrow : row[i]? = some row[i] := List.getElem?_eq_getElem (by omega)
    rw [column_cons (by omega), List.foldl_cons, List.foldl_cons]
    apply ih h.2
    rw [List.getElem?_zipWith, hstart, hrow]

/-- So are rows that are joined to a row of one element. -/
lemma getElem?_foldl_replicate {β : Type} (f : β → α → β) (x : β) {table : List (List α)}
    {width i : Nat} (h : ∀ row ∈ table, row.length = width) (hi : i < width) :
    (table.foldl (List.zipWith f) (List.replicate width x))[i]? =
      some ((column table i).foldl f x) :=
  getElem?_foldl_zipWith f h hi (List.getElem?_replicate_of_lt hi)

/-! ## One line -/

variable [Scalar α]

/-- The softmax of one line: the elements less their maximum are exponentiated and added up from
left to right, and if the sum is positive each is multiplied by its inverse. -/
def softmaxLine (line : List α) : List α :=
  let largest := line.foldl Scalar.larger Scalar.negInfinity
  let exponentials := line.map fun x => Scalar.exp (Scalar.sub x largest)
  let sum := exponentials.foldl Scalar.add Scalar.zero
  if Scalar.less Scalar.zero sum then
    exponentials.map fun e => Scalar.mul e (Scalar.div Scalar.one sum)
  else exponentials

/-- The softmax of a line has an element for each of its elements. -/
lemma length_softmaxLine (line : List α) : (softmaxLine line).length = line.length := by
  rw [softmaxLine]
  split <;> simp

/-- Whether exponentials are multiplied depends on their sum only. -/
lemma map_normalize (sum : α) (exponentials : List α) :
    exponentials.map (normalize sum) =
      if Scalar.less Scalar.zero sum then
        exponentials.map fun e => Scalar.mul e (Scalar.div Scalar.one sum)
      else exponentials := by
  split
  · next h => exact List.map_congr_left fun e _ => if_pos h
  · next h => exact (List.map_congr_left fun e _ => if_neg h).trans (List.map_id' exponentials)

/-- A column of the exponentials holds those of a column of the block. -/
lemma column_exponentialRows {block : List α} {i : Nat} (h : block.length = size * inner)
    (hi : i < inner) :
    column (exponentialRows size inner block) i =
      (column (rows size inner block) i).map fun x =>
        Scalar.exp (Scalar.sub x
          ((column (rows size inner block) i).foldl Scalar.larger Scalar.negInfinity)) := by
  have hlines := length_of_mem_rows (Nat.le_of_eq h.symm)
  have hlargest := getElem?_foldl_replicate Scalar.larger (Scalar.negInfinity : α) hlines hi
  rw [exponentialRows, column_map_zipWith _ hlargest]

/-- **Columns**: a column of the softmax of a block is the softmax of a column of the block.

**Proof sketch.** The largest elements and the sums are joined from row to row, hence in columns
(`getElem?_foldl_zipWith`); the exponentials and the products are worked on with one row, hence in
columns too (`column_map_zipWith`). -/
theorem column_softmaxRows {block : List α} {i : Nat} (h : block.length = size * inner)
    (hi : i < inner) :
    column (softmaxRows size inner block) i = softmaxLine (column (rows size inner block) i) := by
  have hsum := getElem?_foldl_replicate Scalar.add Scalar.zero (length_of_mem_exponentialRows h) hi
  rw [softmaxRows, column_map_zipWith _ hsum, column_exponentialRows h hi, map_normalize,
    softmaxLine]

/-! ## All lines -/

/-- The softmax of all blocks, one after another. -/
def softmaxBlocks (outer size inner : Nat) (input : List α) : List α :=
  ((rows outer (size * inner) input).map (softmaxBlock size inner)).flatten

variable {input output : List α}

/-- The softmax of a block of the input has the size of a block. -/
lemma length_of_mem_softmaxBlocks (hinput : input.length = outer * (size * inner)) :
    ∀ block ∈ (rows outer (size * inner) input).map (softmaxBlock size inner),
      block.length = size * inner := by
  rw [List.forall_mem_map]
  exact fun block hblock =>
    length_softmaxBlock (length_of_mem_rows (Nat.le_of_eq hinput.symm) block hblock)

/-- There are as many values as elements. -/
lemma length_softmaxBlocks (hinput : input.length = outer * (size * inner)) :
    (softmaxBlocks outer size inner input).length = outer * (size * inner) := by
  rw [softmaxBlocks, length_flatten_of_width (length_of_mem_softmaxBlocks hinput), List.length_map,
    length_rows]

/-- The softmax of a block is where the block was. -/
lemma getElem?_softmaxBlocks (hinput : input.length = outer * (size * inner)) {o p : Nat}
    (ho : o < outer) (hp : p < size * inner) :
    (softmaxBlocks outer size inner input)[o * (size * inner) + p]? =
      (softmaxBlock size inner ((input.drop (o * (size * inner))).take (size * inner)))[p]? := by
  have ho' : o < ((rows outer (size * inner) input).map (softmaxBlock size inner)).length := by
    simpa using ho
  rw [softmaxBlocks, getElem?_flatten (length_of_mem_softmaxBlocks hinput) ho' hp]
  congr 1
  rw [← Option.some.injEq, ← List.getElem?_eq_getElem, List.getElem?_map, getElem?_rows ho,
    Option.map_some]

/-- **Lines**: a line of the result is the softmax of the line of the input at the same places.

**Proof sketch.** A line of the input is a column of a block. The line of the result at its places
is the same column of the softmax of the block, and this is the softmax of the column
(`column_softmaxRows`). -/
theorem line_softmaxBlocks (hinput : input.length = outer * (size * inner)) {o i : Nat}
    (ho : o < outer) (hi : i < inner) :
    ∃ line, Line input size inner o i line ∧
      Line (softmaxBlocks outer size inner input) size inner o i (softmaxLine line) := by
  set block := (input.drop (o * (size * inner))).take (size * inner) with hblock
  have hlength : block.length = size * inner :=
    length_of_mem_rows (Nat.le_of_eq hinput.symm) block
      (List.mem_of_getElem? (getElem?_rows ho input))
  have hrows := length_of_mem_rows (Nat.le_of_eq hlength.symm)
  have hsoftmax := length_of_mem_softmaxRows hlength
  have hrowsLength : (column (rows size inner block) i).length = size := by
    rw [length_column hrows hi, length_rows]
  refine ⟨column (rows size inner block) i, ⟨hrowsLength, fun j hj => ?_⟩, ?_, fun j hj => ?_⟩
  · refine ⟨(column (rows size inner block) i)[j], ?_, List.getElem?_eq_getElem _⟩
    have hp : j * inner + i < size * inner := mul_add_lt hj hi
    rw [← List.getElem?_eq_getElem, getElem?_column hrows hi, getElem?_rows hj, Option.bind_some,
      getElem?_row hi, place_eq_add, hblock, getElem?_row hp]
  · rw [length_softmaxLine, hrowsLength]
  · have hp : j * inner + i < size * inner := mul_add_lt hj hi
    have hj' : j < (softmaxLine (column (rows size inner block) i)).length := by
      rwa [length_softmaxLine, hrowsLength]
    refine ⟨(softmaxLine (column (rows size inner block) i))[j], ?_, List.getElem?_eq_getElem _⟩
    have hline : j < (softmaxRows size inner block).length := by rwa [length_softmaxRows]
    rw [← List.getElem?_eq_getElem, ← column_softmaxRows hlength hi, place_eq_add,
      getElem?_softmaxBlocks hinput ho hp, softmaxBlock_eq, getElem?_flatten hsoftmax hline hi,
      getElem?_column hsoftmax hi, List.getElem?_eq_getElem hline, Option.bind_some]

end Kernel

end Inference
