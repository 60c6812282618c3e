import Inference.Proofs.Kernel.Acceptance
import Inference.Proofs.Kernel.Rows

set_option autoImplicit false
set_option relaxedAutoImplicit false

/-!
# The loop of the affine transform

The affine transform changes its output row by row, and finds rows and elements by positions in
words. This file compares this loop with two others: one whose positions are exact numbers, and one
that has no positions at all, since it goes through lists of rows. All three give the same as long
as the sizes that were compared with the lengths of the operands are exact.

If they are not, some product of two sizes is larger than the operand that it was compared with,
and then the loop breaks off. Its positions go up by one element or one row at a time, so they
reach the end of that operand before they can wrap. Only a transform of no rows takes no steps at
all.

## Main definitions

* `Kernel.affineRow`, `Kernel.affineLines` — an output row, and all of them, without positions.
* `Kernel.transform?` — the loop with exact positions.
* `Kernel.Measured` — operands whose lengths are the exact products of the sizes.

## Main results

* `Kernel.transform?_eq` — the loop with exact positions gives all output rows.
* `Kernel.loop_setRow_eq` — so does the loop with words, over operands that are measured.
* `Kernel.measured_of_complete` — a loop that runs to its end has measured operands.
-/

namespace Inference

namespace Kernel

variable {α : Type}

/-! ## Loops -/

section

variable {step : UInt64 → List α → Written α}

/-- What holds at the start of a loop that runs to its end, and is kept by every step that does,
holds at the end. -/
lemma loop_induction {motive : Nat → List α → Prop}
    (hstep : ∀ i row, motive i row → (step (UInt64.ofNat i) row).complete →
      motive (i + 1) (step (UInt64.ofNat i) row).values)
    {count : Nat} (first : Nat) {output : List α} (hstart : motive first output)
    (hcomplete : (loop step count (UInt64.ofNat first) output).complete) :
    motive (first + count) (loop step count (UInt64.ofNat first) output).values := by
  induction count generalizing first output with
  | zero => exact hstart
  | succ count ih =>
    have hnext : UInt64.ofNat first + 1 = UInt64.ofNat (first + 1) :=
      (UInt64.ofNat_add first 1).symm
    rw [loop] at hcomplete ⊢
    split at hcomplete
    · next hfirst =>
      rw [if_pos hfirst, hnext, Nat.add_comm count, ← Nat.add_assoc]
      rw [hnext] at hcomplete
      exact ih (first + 1) (hstep first output hstart hfirst) hcomplete
    · next hfirst => exact absurd hcomplete hfirst

/-- A loop whose steps keep the length of what they change keeps it, whether or not it runs to its
end. -/
lemma length_loop {width : Nat}
    (hstep : ∀ i row, row.length = width → (step i row).values.length = width) {count : Nat}
    {next : UInt64} {output : List α} (hstart : output.length = width) :
    (loop step count next output).values.length = width := by
  induction count generalizing next output with
  | zero => exact hstart
  | succ count ih =>
    rw [loop]
    split
    · exact ih (hstep next output hstart)
    · exact hstep next output hstart

/-- A loop gives what a loop with exact positions gives, if its steps do, on whatever the steps
before them leave. -/
lemma loop_eq_whole {step? : List α → Nat → Option (List α)} {P : List α → Prop}
    (hstep : ∀ i row next, P row → step? row i = some next →
      P next ∧ step (UInt64.ofNat i) row = .whole next)
    {count first : Nat} {output values : List α} (hstart : P output)
    (h : (List.range' first count).foldlM step? output = some values) :
    loop step count (UInt64.ofNat first) output = .whole values := by
  induction count generalizing first output with
  | zero =>
    rw [List.range'_zero, List.foldlM_nil] at h
    obtain rfl := Option.some.inj h
    rfl
  | succ count ih =>
    rw [List.range'_succ, List.foldlM_cons, Option.bind_eq_bind,
      Option.bind_eq_some_iff] at h
    obtain ⟨next, hnext, hlater⟩ := h
    obtain ⟨hkept, hwhole⟩ := hstep first output next hstart hnext
    have hword : UInt64.ofNat first + 1 = UInt64.ofNat (first + 1) :=
      (UInt64.ofNat_add first 1).symm
    rw [loop, hwhole]
    exact (congrArg (fun next' => loop step count next' next) hword).trans (ih hkept hlater)

end

/-! ## Positions in words -/

/-- A position in words is exact below the word limit. -/
lemma toNat_position {i p : Nat} {size : UInt64} (h : i * size.toNat + p < wordLimit) :
    (UInt64.ofNat i * size + UInt64.ofNat p).toNat = i * size.toNat + p := by
  have hword : UInt64.ofNat i * size + UInt64.ofNat p = UInt64.ofNat (i * size.toNat + p) := by
    rw [UInt64.ofNat_add, UInt64.ofNat_mul, UInt64.ofNat_toNat]
  rw [hword, UInt64.toNat_ofNat']
  exact Nat.mod_eq_of_lt h

/-- So is the position of a row. -/
lemma toNat_rowPosition {i : Nat} {size : UInt64} (h : i * size.toNat < wordLimit) :
    (UInt64.ofNat i * size).toNat = i * size.toNat := by
  have hword : UInt64.ofNat i * size = UInt64.ofNat (i * size.toNat) := by
    rw [UInt64.ofNat_mul, UInt64.ofNat_toNat]
  rw [hword, UInt64.toNat_ofNat']
  exact Nat.mod_eq_of_lt h

/-- Elements that are found from a position in words on end inside their list: the position behind
them did not wrap, since it would lie in front of the first one. -/
lemma end_of_between? {elements row : List α} {start size : UInt64}
    (h : between? elements start.toNat (start + size).toNat = some row) :
    start.toNat + size.toNat ≤ elements.length ∧ row.length = size.toNat := by
  have hstop : (start + size).toNat = (start.toNat + size.toNat) % wordLimit :=
    UInt64.toNat_add start size
  have hstart : start.toNat < wordLimit := UInt64.toNat_lt start
  have hsize : size.toNat < wordLimit := UInt64.toNat_lt size
  unfold between? at h
  split at h
  next hends =>
    rw [hstop] at hends h
    have hexact : (start.toNat + size.toNat) % wordLimit = start.toNat + size.toNat := by
      by_cases hlt : start.toNat + size.toNat < wordLimit
      · exact Nat.mod_eq_of_lt hlt
      · have hwrapped : (start.toNat + size.toNat) % wordLimit =
            start.toNat + size.toNat - wordLimit := by
          rw [Nat.mod_eq_sub_mod (by omega), Nat.mod_eq_of_lt (by omega)]
        omega
    rw [hexact] at hends h
    refine ⟨hends.2, ?_⟩
    rw [← Option.some.inj h, List.length_take, List.length_drop]
    omega
  next => cases h

/-- The row behind row `i` starts one width further on. -/
lemma succ_mul_word (i size : UInt64) : (i + 1) * size = i * size + size := by
  rw [UInt64.add_mul, UInt64.one_mul]

/-- A row that is found between two positions in words ends inside the list. -/
lemma row_of_between? {elements row : List α} {i : Nat} {size : UInt64}
    (hi : i * size.toNat ≤ elements.length) (hlength : elements.length < wordLimit)
    (h : between? elements (UInt64.ofNat i * size).toNat
      ((UInt64.ofNat i + 1) * size).toNat = some row) :
    (i + 1) * size.toNat ≤ elements.length ∧ row.length = size.toNat := by
  rw [succ_mul_word] at h
  have hend := end_of_between? h
  rwa [toNat_rowPosition (Nat.lt_of_le_of_lt hi hlength), ← Nat.succ_mul] at hend

/-- The ends of a row that lies inside its list are exact. -/
lemma between?_rowPosition {elements : List α} {i : Nat} {size : UInt64}
    (hstop : (i + 1) * size.toNat ≤ elements.length) (hlength : elements.length < wordLimit) :
    between? elements (UInt64.ofNat i * size).toNat ((UInt64.ofNat i + 1) * size).toNat =
      between? elements (i * size.toNat) ((i + 1) * size.toNat) := by
  have hword : UInt64.ofNat i + 1 = UInt64.ofNat (i + 1) := (UInt64.ofNat_add i 1).symm
  rw [hword, toNat_rowPosition (Nat.lt_of_le_of_lt hstop hlength), toNat_rowPosition]
  rw [Nat.succ_mul] at hstop
  omega

/-! ## The loop with exact positions -/

section

variable [Scalar α]

/-- An output row: what it starts as, with all weight rows added to it, each times the input element
it belongs to. -/
def affineRow (weights : List (List α)) (start input : List α) : List α :=
  (input.zip weights).foldl (fun row (a, weights) => addScaled row a weights) start

/-- The output rows of an affine transform, one after another. -/
def affineLines (input weight : List α) (bias : Option (List α)) (outer k n : Nat) : List α :=
  ((rows outer k input).map (affineRow (rows k n weight)
    (bias.getD (List.replicate n Scalar.zero)))).flatten

/-- A row of the output with a weight row added to it, times the input element at its position. -/
def addRow? (input weight : List α) (k n i : Nat) (row : List α) (p : Nat) : Option (List α) := do
  let a ← input[i * k + p]?
  let ws ← between? weight (p * n) ((p + 1) * n)
  return addScaled row a ws

/-- The output after one of its rows was set to what it starts as and then had all weight rows added
to it. Absent if a row or an element lies outside its list, or if a row is set to another number of
elements than it has. -/
def setRow? (input weight : List α) (bias : Option (List α)) (k n : Nat) (output : List α)
    (i : Nat) : Option (List α) := do
  let row ← between? output (i * n) ((i + 1) * n)
  let start ← replace? row 0 row.length (bias.getD (List.replicate n Scalar.zero))
  let sums ← (List.range k).foldlM (addRow? input weight k n i) start
  replace? output (i * n) ((i + 1) * n) sums

/-- The output after all of its rows were set, one after another. -/
def transform? (input weight : List α) (bias : Option (List α)) (outer k n : Nat)
    (output : List α) : Option (List α) :=
  (List.range outer).foldlM (setRow? input weight bias k n) output

/-- An output row is as wide as the row it starts as and the weight rows. -/
lemma length_affineRow {weights : List (List α)} {start : List α} {width : Nat}
    (hstart : start.length = width) (hweights : ∀ row ∈ weights, row.length = width)
    (input : List α) : (affineRow weights start input).length = width :=
  length_foldl_of_width hstart fun _ _ hitem hrow =>
    length_zipWith_of_width _ hrow (hweights _ (List.of_mem_zip hitem).2)

/-- The output rows have the elements of an output. -/
lemma length_affineLines {input weight : List α} {bias : Option (List α)} {outer k n : Nat}
    (hweight : weight.length = k * n)
    (hbias : (bias.getD (List.replicate n Scalar.zero)).length = n) :
    (affineLines input weight bias outer k n).length = outer * n := by
  have hwidth : ∀ row ∈ (rows outer k input).map (affineRow (rows k n weight)
      (bias.getD (List.replicate n Scalar.zero))), row.length = n := by
    rw [List.forall_mem_map]
    exact fun row _ => length_affineRow hbias (length_of_mem_rows (Nat.le_of_eq hweight.symm)) row
  rw [affineLines, length_flatten_of_width hwidth, List.length_map, length_rows]

/-- The last of the first weight rows is added to the row that the others give. -/
lemma affineRow_take_succ {weights : List (List α)} {input : List α} {count : Nat}
    (hinput : count < input.length) (hweights : count < weights.length) (start : List α) :
    affineRow (weights.take (count + 1)) start (input.take (count + 1)) =
      addScaled (affineRow (weights.take count) start (input.take count)) input[count]
        weights[count] := by
  rw [affineRow, ← List.take_concat_get' _ _ hinput, ← List.take_concat_get' _ _ hweights,
    List.zip_append (by simp; omega), List.foldl_append]
  rfl

/-- Adding the weight rows by their positions gives the output row.

**Proof sketch.** Induction on the number of weight rows that were added. The next element of the
input row and the next weight row are at the positions that are asked for, and adding that row is
what is left to do (`affineRow_take_succ`). -/
lemma foldlM_addRow? {input weight : List α} {outer k n i : Nat} (hi : i < outer)
    (hinput : input.length = outer * k) (hweight : weight.length = k * n) (start : List α) :
    (List.range k).foldlM (addRow? input weight k n i) start =
      some (affineRow (rows k n weight) start ((input.drop (i * k)).take k)) := by
  have hle : (i + 1) * k ≤ outer * k := Nat.mul_le_mul_right _ hi
  rw [Nat.succ_mul] at hle
  set elements := (input.drop (i * k)).take k with helements
  set weights := rows k n weight with hweights
  have helementsLength : elements.length = k := by
    simp only [helements, List.length_take, List.length_drop]
    omega
  have hweightsLength : weights.length = k := length_rows _ _ _
  have hsteps : ∀ count ≤ k, (List.range count).foldlM (addRow? input weight k n i) start =
      some (affineRow (weights.take count) start (elements.take count)) := by
    intro count hcount
    induction count with
    | zero => simp [affineRow]
    | succ count ih =>
      have helement : input[i * k + count]? = some elements[count] :=
        (getElem?_row hcount input (i * k)).symm.trans (List.getElem?_eq_getElem _)
      have hrow : between? weight (count * n) ((count + 1) * n) = some weights[count] := by
        rw [between?_row hcount (Nat.le_of_eq hweight.symm), ← getElem?_rows hcount]
        exact List.getElem?_eq_getElem _
      rw [List.range_succ, List.foldlM_append, ih (by omega),
        affineRow_take_succ (by omega) (by omega)]
      simp [addRow?, helement, hrow]
  have hall := hsteps k (Nat.le_refl _)
  rwa [List.take_of_length_le (by omega), List.take_of_length_le (by omega)] at hall

/-- Setting a row replaces it by the output row of its input row. -/
lemma setRow?_eq {input weight : List α} {bias : Option (List α)} {outer k n i : Nat}
    (hi : i < outer) (hinput : input.length = outer * k) (hweight : weight.length = k * n)
    (hbias : (bias.getD (List.replicate n Scalar.zero)).length = n) {front old : List α}
    (hfront : front.length = i * n) (hold : old.length = n) (back : List α) :
    setRow? input weight bias k n (front ++ (old ++ back)) i =
      some (front ++ (affineRow (rows k n weight) (bias.getD (List.replicate n Scalar.zero))
        ((input.drop (i * k)).take k) ++ back)) := by
  have hstop : i * n + old.length = (i + 1) * n := by rw [hold, Nat.succ_mul]
  have hstart : replace? old 0 old.length (bias.getD (List.replicate n Scalar.zero)) =
      some (bias.getD (List.replicate n Scalar.zero)) := replace?_all (hbias.trans hold.symm)
  have hsums := foldlM_addRow? hi hinput hweight (bias.getD (List.replicate n Scalar.zero))
  have hline : (affineRow (rows k n weight) (bias.getD (List.replicate n Scalar.zero))
      ((input.drop (i * k)).take k)).length = old.length :=
    (length_affineRow hbias (length_of_mem_rows (Nat.le_of_eq hweight.symm)) _).trans hold.symm
  simp only [setRow?, between?_append hfront hstop, Option.bind_eq_bind, Option.bind_some, hstart,
    hsums, replace?_append hfront hstop hline]

/-- **Positions**: no position of the loop lies outside its list, and the loop gives the output
rows, whatever the output held.

**Proof sketch.** Induction on the number of rows that were set: these come first in the output, and
after them what it held. The next row is there in full and is replaced by its output row
(`setRow?_eq`). -/
theorem transform?_eq {input weight output : List α} {bias : Option (List α)} {outer k n : Nat}
    (hinput : input.length = outer * k) (hweight : weight.length = k * n)
    (houtput : output.length = outer * n)
    (hbias : (bias.getD (List.replicate n Scalar.zero)).length = n) :
    transform? input weight bias outer k n output =
      some (affineLines input weight bias outer k n) := by
  rw [affineLines]
  set start := bias.getD (List.replicate n Scalar.zero) with hstart
  set lines := (rows outer k input).map (affineRow (rows k n weight) start) with hlines
  have hwidth : ∀ line ∈ lines, line.length = n := by
    rw [hlines, List.forall_mem_map]
    exact fun row _ => length_affineRow hbias (length_of_mem_rows (Nat.le_of_eq hweight.symm)) row
  have hcount : lines.length = outer := by simp [hlines]
  have hsteps : ∀ i ≤ outer, (List.range i).foldlM (setRow? input weight bias k n) output =
      some ((lines.take i).flatten ++ output.drop (i * n)) := by
    intro i hi
    induction i with
    | zero => simp
    | succ i ih =>
      have hline : lines[i] = affineRow (rows k n weight) start ((input.drop (i * k)).take k) := by
        rw [← Option.some.injEq, ← List.getElem?_eq_getElem, hlines, List.getElem?_map,
          getElem?_rows hi, Option.map_some]
      have hfront : (lines.take i).flatten.length = i * n := by
        rw [length_flatten_of_width fun line hline => hwidth line (List.mem_of_mem_take hline),
          List.length_take, hcount, Nat.min_eq_left (by omega)]
      have hle : (i + 1) * n ≤ outer * n := Nat.mul_le_mul_right _ hi
      rw [Nat.succ_mul] at hle
      have hold : ((output.drop (i * n)).take n).length = n := by
        rw [List.length_take, List.length_drop]
        omega
      have hsplit : output.drop (i * n) =
          (output.drop (i * n)).take n ++ output.drop ((i + 1) * n) := by
        rw [Nat.succ_mul, ← List.drop_drop, List.take_append_drop]
      rw [List.range_succ, List.foldlM_append, ih (by omega), hsplit]
      simp only [Option.bind_eq_bind, Option.bind_some, List.foldlM_cons, List.foldlM_nil,
        setRow?_eq hi hinput hweight hbias hfront hold]
      rw [List.take_succ_eq_append_getElem (by omega), List.flatten_append, hline]
      simp [hstart]
  have hall := hsteps outer (Nat.le_refl _)
  rwa [List.take_of_length_le (by omega), ← houtput, List.drop_length, List.append_nil] at hall

/-! ## The loop with words -/

/-- Operands whose lengths are the exact products of the sizes. -/
structure Measured (input weight output : List α) (outer k n : Nat) : Prop where
  input_eq : input.length = outer * k
  weight_eq : weight.length = k * n
  output_eq : output.length = outer * n

variable {input weight output : List α} {bias : Option (List α)} {k n : UInt64}

/-- A row starts with as many elements as the weight has columns. -/
lemma length_start {width : Nat} (hbias : ∀ starts ∈ bias, starts.length = width) :
    (bias.getD (List.replicate width Scalar.zero)).length = width := by
  cases bias with
  | none => simp
  | some starts => exact hbias starts rfl

/-- Adding a weight row by words is adding it by its exact position. -/
lemma addRow_eq_whole {i p : Nat} {row next : List α} (hinput : input.length < wordLimit)
    (hweight : weight.length < wordLimit)
    (h : addRow? input weight k.toNat n.toNat i row p = some next) :
    addRow input weight k n (UInt64.ofNat i) (UInt64.ofNat p) row = .whole next := by
  simp only [addRow?, Option.bind_eq_bind, Option.bind_eq_some_iff] at h
  obtain ⟨a, ha, weights, hweights, hnext⟩ := h
  obtain rfl := Option.some.inj hnext
  have hposition := (List.getElem?_eq_some_iff.mp ha).1
  have hstop := (le_of_between? hweights).2
  rw [addRow, toNat_position (Nat.lt_trans hposition hinput), ha,
    between?_rowPosition hstop hweight, hweights]

/-- What a row starts as, in the row's own width. -/
lemma startRow_eq {row : List α} (hrow : row.length = n.toNat) :
    startRow bias row = bias.getD (List.replicate n.toNat Scalar.zero) := by
  rw [startRow, List.map_const', hrow]

/-- Setting a row by words is setting it by its exact position, and keeps the length of the
output. -/
lemma setRow_eq_whole {i : Nat} {old next : List α} (hinput : input.length < wordLimit)
    (hweight : weight.length < wordLimit) (hold : old.length < wordLimit)
    (h : setRow? input weight bias k.toNat n.toNat old i = some next) :
    next.length < wordLimit ∧
      setRow input weight bias k n (UInt64.ofNat i) old = .whole next := by
  simp only [setRow?, Option.bind_eq_bind, Option.bind_eq_some_iff, replace?_eq_some_iff] at h
  obtain ⟨row, hrow, start, ⟨-, hstart⟩, sums, hsums, ⟨hle, hstop, hlength⟩, rfl⟩ := h
  have hfound := between?_rowPosition hstop hold
  rw [hrow] at hfound
  have hwidth := (row_of_between? (Nat.le_trans hle hstop) hold hfound).2
  have hall : sums.length = n.toNat := by
    rw [hlength, Nat.succ_mul, Nat.add_sub_cancel_left]
  have hloop : loop (addRow input weight k n (UInt64.ofNat i)) k.toNat 0 (startRow bias row) =
      .whole sums := by
    rw [List.take_zero, List.drop_length, List.nil_append, List.append_nil] at hstart
    rw [startRow_eq hwidth, ← hstart]
    rw [List.range_eq_range'] at hsums
    exact loop_eq_whole (P := fun _ => True)
      (fun p row' next' _ hstep => ⟨trivial, addRow_eq_whole hinput hweight hstep⟩) trivial hsums
  constructor
  · rw [List.length_append, List.length_append, List.length_take, List.length_drop, hall]
    rw [Nat.succ_mul] at hstop ⊢
    omega
  · rw [setRow, hfound]
    simp only [hloop, Written.whole, splice, hall, Nat.succ_mul,
      toNat_rowPosition (Nat.lt_of_le_of_lt (Nat.le_trans hle hstop) hold)]

/-- **Words**: over operands that are measured, the loop with words gives all output rows, whatever
the output held.

**Proof sketch.** The loop with exact positions gives them (`transform?_eq`), and all its positions
lie inside operands that are shorter than the word limit, so they are the same in words. -/
theorem loop_setRow_eq {outer : UInt64}
    (h : Measured input weight output outer.toNat k.toNat n.toNat)
    (hinput : input.length < wordLimit) (hweight : weight.length < wordLimit)
    (houtput : output.length < wordLimit)
    (hbias : ∀ starts ∈ bias, starts.length = n.toNat) :
    loop (setRow input weight bias k n) outer.toNat 0 output =
      .whole (affineLines input weight bias outer.toNat k.toNat n.toNat) := by
  have hexact := transform?_eq h.input_eq h.weight_eq h.output_eq (length_start hbias)
  rw [transform?, List.range_eq_range'] at hexact
  exact loop_eq_whole (P := fun values => values.length < wordLimit)
    (fun i row next hrow hstep => setRow_eq_whole hinput hweight hrow hstep) houtput hexact

/-! ## Loops that run to their end -/

/-- A weight row that is added was found, and so was the input element. -/
lemma reach_of_addRow {i p : Nat} {row : List α} (hinput : input.length < wordLimit)
    (hweight : weight.length < wordLimit) (hi : i * k.toNat + p ≤ input.length)
    (hp : p * n.toNat ≤ weight.length)
    (h : (addRow input weight k n (UInt64.ofNat i) (UInt64.ofNat p) row).complete) :
    i * k.toNat + (p + 1) ≤ input.length ∧ (p + 1) * n.toNat ≤ weight.length := by
  unfold addRow at h
  split at h
  next a weights ha hweights =>
    rw [toNat_position (Nat.lt_of_le_of_lt hi hinput)] at ha
    exact ⟨(List.getElem?_eq_some_iff.mp ha).1, (row_of_between? hp hweight hweights).1⟩
  next => cases h

/-- If all weight rows are added to an output row, they are all there, and so are the elements of
the input row. -/
lemma reach_of_setRow {i : Nat} {old : List α} (hinput : input.length < wordLimit)
    (hweight : weight.length < wordLimit) (hold : old.length < wordLimit)
    (hi : i * k.toNat ≤ input.length) (hrow : i * n.toNat ≤ old.length)
    (h : (setRow input weight bias k n (UInt64.ofNat i) old).complete) :
    (i + 1) * k.toNat ≤ input.length ∧ k.toNat * n.toNat ≤ weight.length ∧
      (i + 1) * n.toNat ≤ old.length := by
  unfold setRow at h
  split at h
  next row hfound =>
    obtain ⟨hsums, hsumsWeight⟩ := loop_induction
      (motive := fun p _ => i * k.toNat + p ≤ input.length ∧ p * n.toNat ≤ weight.length)
      (fun p _ hp hstep => reach_of_addRow hinput hweight hp.1 hp.2 hstep) 0
      ⟨hi, by rw [Nat.zero_mul]; exact Nat.zero_le _⟩ h
    rw [Nat.zero_add] at hsums hsumsWeight
    exact ⟨by rwa [Nat.succ_mul], hsumsWeight, (row_of_between? hrow hold hfound).1⟩
  next => cases h

/-- Adding a weight row keeps the width of a row. -/
lemma length_addRow {i p : UInt64} {row : List α} (hrow : row.length = n.toNat) :
    (addRow input weight k n i p row).values.length = n.toNat := by
  unfold addRow
  split
  next a weights ha hweights =>
    rw [succ_mul_word] at hweights
    exact length_zipWith_of_width _ hrow (end_of_between? hweights).2
  next => exact hrow

/-- Setting a row keeps the length of the output, also where it breaks off. -/
lemma length_setRow (hbias : ∀ starts ∈ bias, starts.length = n.toNat) (i : UInt64)
    (old : List α) : (setRow input weight bias k n i old).values.length = old.length := by
  unfold setRow
  split
  next row hfound =>
    rw [succ_mul_word] at hfound
    obtain ⟨hend, hwidth⟩ := end_of_between? hfound
    have hstart : (startRow bias row).length = n.toNat := by
      rw [startRow_eq hwidth]
      exact length_start hbias
    have hsums : (loop (addRow input weight k n i) k.toNat 0 (startRow bias row)).values.length =
        n.toNat := length_loop (fun _ _ => length_addRow) hstart
    simp only [splice, List.length_append, List.length_take, List.length_drop, hsums]
    omega
  next => rfl

/-- **Breaking off**: if a loop over at least one row runs to its end, its operands are measured.

**Proof sketch.** The positions that were reached are exact and lie inside the operands
(`reach_of_setRow`), so at the end no operand is shorter than the exact product that belongs to it.
It is not longer either, since its length is this product reduced to a word. -/
theorem measured_of_complete {outer : UInt64} (houter : outer ≠ 0)
    (hinput : input.length = (outer * k).toNat) (hweight : weight.length = (k * n).toNat)
    (houtput : output.length = (outer * n).toNat)
    (hbias : ∀ starts ∈ bias, starts.length = n.toNat)
    (hcomplete : (loop (setRow input weight bias k n) outer.toNat 0 output).complete) :
    Measured input weight output outer.toNat k.toNat n.toNat := by
  have hlt (a : UInt64) : a.toNat < wordLimit := UInt64.toNat_lt a
  have hmul (a b : UInt64) : (a * b).toNat ≤ a.toNat * b.toNat := by
    rw [UInt64.toNat_mul]
    exact Nat.mod_le _ _
  obtain ⟨-, hreachInput, hreachOutput, hreachWeight⟩ := loop_induction
    (motive := fun i old => old.length = output.length ∧ i * k.toNat ≤ input.length ∧
      i * n.toNat ≤ output.length ∧ (0 < i → k.toNat * n.toNat ≤ weight.length))
    (fun i old ⟨hold, hi, hrow, _⟩ hstep => by
      obtain ⟨hnext, hall, hend⟩ := reach_of_setRow (hinput ▸ hlt _) (hweight ▸ hlt _)
        (hold ▸ houtput ▸ hlt _) hi (hold ▸ hrow) hstep
      exact ⟨(length_setRow hbias _ old).trans hold, hnext, hold ▸ hend, fun _ => hall⟩)
    0 ⟨rfl, by simp, by simp, by simp⟩ hcomplete
  rw [Nat.zero_add] at hreachInput hreachOutput hreachWeight
  have hpos : 0 < outer.toNat := Nat.pos_of_ne_zero fun hzero =>
    houter (UInt64.toNat_inj.mp hzero)
  exact ⟨Nat.le_antisymm (hinput ▸ hmul outer k) hreachInput,
    Nat.le_antisymm (hweight ▸ hmul k n) (hreachWeight hpos),
    Nat.le_antisymm (houtput ▸ hmul outer n) hreachOutput⟩

end

end Kernel

end Inference
