import Inference.Proofs.Kernel.Overwriting

set_option autoImplicit false
set_option relaxedAutoImplicit false

/-!
# What the affine transform computes

The affine transform adds weight rows to whole output rows, so that every step works on elements
that lie next to each other. What an output element then holds is a product of an input row and a
weight column, accumulated from left to right: no other order of additions would round in the same
way. This file shows it for every interpretation of the arithmetic, sizes of zero included, as long
as the products of dimensions that the transform forms are exact in machine words.

## Main definitions

* `Kernel.accumulate?` — an output element by itself, with checked positions.
* `Kernel.Accumulates` — output rows whose elements are accumulated in this way.
* `Kernel.ExactSizes` — shapes whose products are exact in machine words.

## Main results

* `Kernel.getElem?_affineRow` — an element of an output row is accumulated on its own.
* `Kernel.accumulates_affineLines` — so are all elements of the output rows.
* `Kernel.affine_accumulates` — when there is a result, and what its elements are.
-/

namespace Inference

namespace Kernel

variable {α : Type}

/-! ## One element -/

variable [Scalar α]

/-- What an output element is accumulated to in `count` steps: it starts as `start`, and every step
adds the product of an input element and the weight element that it belongs to. Absent if one of
them is. -/
def accumulate? (start : Option α) (input weight : Nat → Option α) : Nat → Option α
  | 0 => start
  | count + 1 => do
    let sum ← accumulate? start input weight count
    let a ← input count
    let w ← weight count
    return Scalar.add sum (Scalar.mul a w)

/-- Accumulation only looks at the elements that it takes. -/
lemma accumulate?_congr {start : Option α} {input other weight another : Nat → Option α}
    {count : Nat} (hinput : ∀ p < count, input p = other p)
    (hweight : ∀ p < count, weight p = another p) :
    accumulate? start input weight count = accumulate? start other another count := by
  induction count with
  | zero => rfl
  | succ count ih =>
    rw [accumulate?, accumulate?, hinput count (Nat.lt_succ_self _),
      hweight count (Nat.lt_succ_self _),
      ih (fun p hp => hinput p (by omega)) fun p hp => hweight p (by omega)]

/-- An element of a row after a weight row was added to it. -/
lemma getElem?_addScaled (row : List α) (a : α) (weights : List α) (j : Nat) :
    (addScaled row a weights)[j]? = do
      let sum ← row[j]?
      let w ← weights[j]?
      return Scalar.add sum (Scalar.mul a w) := by
  rw [addScaled, List.getElem?_zipWith]
  cases row[j]? <;> cases weights[j]? <;> rfl

/-- **Elements**: an element of an output row is accumulated from left to right, from what the row
starts as, over the input row and a column of the weight rows.

**Proof sketch.** Induction on the number of weight rows that were added: an element of the row
after the last of them (`affineRow_take_succ`) is the one before it with the last product added
(`getElem?_addScaled`). -/
theorem getElem?_affineRow {weights : List (List α)} {input : List α}
    (hlength : weights.length = input.length) (start : List α) (j : Nat) :
    (affineRow weights start input)[j]? =
      accumulate? start[j]? (fun p => input[p]?) (fun p => weights[p]?.bind fun row => row[j]?)
        input.length := by
  have htake : ∀ count ≤ input.length,
      (affineRow (weights.take count) start (input.take count))[j]? =
        accumulate? start[j]? (fun p => input[p]?)
          (fun p => weights[p]?.bind fun row => row[j]?) count := by
    intro count hcount
    induction count with
    | zero => simp [affineRow, accumulate?]
    | succ count ih =>
      have hweights : count < weights.length := by omega
      rw [accumulate?, ← ih (by omega), affineRow_take_succ hcount hweights, getElem?_addScaled,
        List.getElem?_eq_getElem hcount, List.getElem?_eq_getElem hweights]
      rfl
  have hall := htake input.length (Nat.le_refl _)
  rwa [List.take_length, ← hlength, List.take_length, hlength] at hall

/-! ## The transform -/

/-- The output rows of an affine transform, one after another: each element is accumulated on its
own, from the bias or from zero, over its row of the input and its column of the weight. -/
structure Accumulates (input weight : List α) (bias : Option (List α)) (outer k n : Nat)
    (values : List α) : Prop where
  length_eq : values.length = outer * n
  element : ∀ i < outer, ∀ j < n, ∃ value, values[i * n + j]? = some value ∧
    accumulate? (bias.elim (some Scalar.zero) fun starts => starts[j]?)
      (fun p => input[i * k + p]?) (fun p => weight[p * n + j]?) k = some value

variable {input weight output : List α} {inputShape weightShape : Shape} {bias : Option (List α)}
  {axis : Nat}

/-- What an output row starts as, element by element. -/
lemma getElem?_start {n j : Nat} (hj : j < n) :
    (bias.getD (List.replicate n Scalar.zero))[j]? =
      bias.elim (some Scalar.zero) fun starts => starts[j]? := by
  cases bias with
  | none => simp [hj]
  | some starts => rfl

/-- The output rows are accumulated element by element. -/
theorem accumulates_affineLines {outer k n : Nat} (hinput : input.length = outer * k)
    (hweight : weight.length = k * n) (hbias : ∀ starts ∈ bias, starts.length = n) :
    Accumulates input weight bias outer k n (affineLines input weight bias outer k n) := by
  refine ⟨length_affineLines hweight (length_start hbias), fun i hi j hj => ?_⟩
  rw [affineLines]
  set start := bias.getD (List.replicate n Scalar.zero) with hstart
  set lines := (rows outer k input).map (affineRow (rows k n weight) start) with hlines
  have hrows := length_of_mem_rows (Nat.le_of_eq hweight.symm)
  have hwidth : ∀ line ∈ lines, line.length = n := by
    rw [hlines, List.forall_mem_map]
    exact fun row _ => length_affineRow (length_start hbias) hrows row
  have hcount : lines.length = outer := by simp [hlines]
  have hi' : i < lines.length := by omega
  have hj' : j < lines[i].length := by
    rw [hwidth _ (List.getElem_mem _)]
    exact hj
  refine ⟨lines[i][j], ?_, ?_⟩
  · rw [getElem?_flatten hwidth hi' hj, List.getElem?_eq_getElem hj']
  · have hrow : lines[i] = affineRow (rows k n weight) start ((input.drop (i * k)).take k) := by
      rw [← Option.some.injEq, ← List.getElem?_eq_getElem, hlines, List.getElem?_map,
        getElem?_rows hi, Option.map_some]
    have hle : (i + 1) * k ≤ outer * k := Nat.mul_le_mul_right _ hi
    rw [Nat.succ_mul] at hle
    have hlength : ((input.drop (i * k)).take k).length = k := by
      rw [List.length_take, List.length_drop]
      omega
    rw [← List.getElem?_eq_getElem hj', hrow, getElem?_affineRow (by simp [hlength]), hlength,
      hstart, getElem?_start hj]
    apply accumulate?_congr
    · exact fun p hp => (getElem?_row hp input (i * k)).symm
    · intro p hp
      rw [getElem?_rows hp, Option.bind_some, getElem?_row hj]

/-- Shapes of an input that is cut at an axis and of a weight, whose dimensions before and behind
the cuts have exact products in machine words, and so have these products with each other. -/
structure ExactSizes (inputShape weightShape : Shape) (axis : Nat) : Prop where
  outer : (inputShape.dims.take axis).prod < wordLimit
  k : (inputShape.dims.drop axis).prod < wordLimit
  weightRows : (weightShape.dims.take 1).prod < wordLimit
  n : weightShape.dims.tail.prod < wordLimit
  input : (inputShape.dims.take axis).prod * (inputShape.dims.drop axis).prod < wordLimit
  weight : (inputShape.dims.drop axis).prod * weightShape.dims.tail.prod < wordLimit
  output : (inputShape.dims.take axis).prod * weightShape.dims.tail.prod < wordLimit

variable (h : ExactSizes inputShape weightShape axis)
include h

/-- The parts of the input shape are exact. -/
lemma ExactSizes.input_eq_some_iff {outer k : UInt64} :
    inputShape.splitAt? axis = some (outer, k) ↔
      axis ≤ inputShape.rank ∧ outer.toNat = (inputShape.dims.take axis).prod ∧
        k.toNat = (inputShape.dims.drop axis).prod := by
  rw [Shape.splitAt?_eq_some_iff, ← UInt64.toNat_inj, ← UInt64.toNat_inj,
    Shape.toNat_wordProduct_of_lt h.outer, Shape.toNat_wordProduct_of_lt h.k]

/-- So are those of the weight shape. -/
lemma ExactSizes.weight_eq_some_iff {rows n : UInt64} :
    weightShape.splitAt? 1 = some (rows, n) ↔
      weightShape.dims.head? = some rows.toNat ∧ n.toNat = weightShape.dims.tail.prod := by
  have hcut := h.weightRows
  rw [Shape.splitAt?_eq_some_iff, ← UInt64.toNat_inj, ← UInt64.toNat_inj,
    Shape.toNat_wordProduct_of_lt h.weightRows, List.drop_one, Shape.toNat_wordProduct_of_lt h.n,
    Shape.rank]
  cases weightShape.dims with
  | nil => simp
  | cons dim dims => simp [eq_comm]

/-- The transform of operands with exact sizes: it works on them when they have the lengths that
their shapes ask for, and then gives all output rows. -/
theorem ExactSizes.affine_eq_ok_iff {written : Written α} :
    affine input inputShape weight weightShape bias output axis = .ok written ↔
      (axis ≤ inputShape.rank ∧
        weightShape.dims.head? = some (inputShape.dims.drop axis).prod ∧
        input.length = (inputShape.dims.take axis).prod * (inputShape.dims.drop axis).prod ∧
        weight.length = (inputShape.dims.drop axis).prod * weightShape.dims.tail.prod ∧
        output.length = (inputShape.dims.take axis).prod * weightShape.dims.tail.prod ∧
        ∀ starts ∈ bias, starts.length = weightShape.dims.tail.prod) ∧
      written = .whole (affineLines input weight bias (inputShape.dims.take axis).prod
        (inputShape.dims.drop axis).prod weightShape.dims.tail.prod) := by
  simp only [Kernel.affine_eq_ok_iff, h.input_eq_some_iff, h.weight_eq_some_iff]
  have hinputExact := h.input
  have hweightExact := h.weight
  have houtputExact := h.output
  constructor
  · rintro ⟨outer, k, n, ⟨haxis, houter, hk⟩, ⟨hfirst, hn⟩, hinput, hweight, houtput, hbias, rfl⟩
    rw [← houter, ← hk] at hinputExact
    rw [← hk, ← hn] at hweightExact
    rw [← houter, ← hn] at houtputExact
    rw [Shape.toNat_mul_of_lt hinputExact] at hinput
    rw [Shape.toNat_mul_of_lt hweightExact] at hweight
    rw [Shape.toNat_mul_of_lt houtputExact] at houtput
    rw [← houter, ← hk, ← hn, loop_setRow_eq ⟨hinput, hweight, houtput⟩ (hinput ▸ hinputExact)
      (hweight ▸ hweightExact) (houtput ▸ houtputExact) hbias]
    exact ⟨⟨haxis, hfirst, hinput, hweight, houtput, hbias⟩, rfl⟩
  · rintro ⟨⟨haxis, hfirst, hinput, hweight, houtput, hbias⟩, rfl⟩
    have hword {size : Nat} (hsize : size < wordLimit) : (UInt64.ofNat size).toNat = size := by
      rw [UInt64.toNat_ofNat']
      exact Nat.mod_eq_of_lt hsize
    obtain ⟨outer, houter⟩ : ∃ outer : UInt64, outer.toNat = (inputShape.dims.take axis).prod :=
      ⟨_, hword h.outer⟩
    obtain ⟨k, hk⟩ : ∃ k : UInt64, k.toNat = (inputShape.dims.drop axis).prod := ⟨_, hword h.k⟩
    obtain ⟨n, hn⟩ : ∃ n : UInt64, n.toNat = weightShape.dims.tail.prod := ⟨_, hword h.n⟩
    rw [← houter, ← hk] at hinput hinputExact
    rw [← hk, ← hn] at hweight hweightExact
    rw [← houter, ← hn] at houtput houtputExact
    rw [← hk] at hfirst
    rw [← hn] at hbias
    refine ⟨outer, k, n, ⟨haxis, houter, hk⟩, ⟨hfirst, hn⟩,
      hinput.trans (Shape.toNat_mul_of_lt hinputExact).symm,
      hweight.trans (Shape.toNat_mul_of_lt hweightExact).symm,
      houtput.trans (Shape.toNat_mul_of_lt houtputExact).symm, hbias, ?_⟩
    rw [← houter, ← hk, ← hn, loop_setRow_eq ⟨hinput, hweight, houtput⟩ (hinput ▸ hinputExact)
      (hweight ▸ hweightExact) (houtput ▸ houtputExact) hbias]

omit h

/-- **Affine transform**: with `outer` and `k` the products of the input dimensions before the axis
and from it on, and `n` the product of the weight dimensions behind the first, all exact in machine
words, the transform gives a result exactly when the axis is at most the rank, the first weight
dimension is `k`, and the operands have the lengths that this asks for. It then runs to its end.
Element `i * n + j` of the result is accumulated from left to right over row `i` of the input and
column `j` of the weight, and what the output held makes no difference. A loop that checks exact
positions finds all that it uses, and gives the same result.

**Proof sketch.** When there is a result is known, and that it is the output rows, one after another
(`ExactSizes.affine_eq_ok_iff`). They are accumulated element by element
(`accumulates_affineLines`), and the loop with exact positions gives them too (`transform?_eq`). Of
the output only the length is used. -/
theorem affine_accumulates (h : ExactSizes inputShape weightShape axis) :
    let outer := (inputShape.dims.take axis).prod
    let k := (inputShape.dims.drop axis).prod
    let n := weightShape.dims.tail.prod
    let result := affine input inputShape weight weightShape bias
    ((∃ written, result output axis = .ok written) ↔
      axis ≤ inputShape.rank ∧ weightShape.dims.head? = some k ∧ input.length = outer * k ∧
        weight.length = k * n ∧ output.length = outer * n ∧
        ∀ starts ∈ bias, starts.length = n) ∧
      ∀ written, result output axis = .ok written →
        written.complete = true ∧ Accumulates input weight bias outer k n written.values ∧
          ∀ other, other.length = output.length → result other axis = .ok written ∧
            transform? input weight bias outer k n other = some written.values := by
  intro outer k n result
  simp only [result, h.affine_eq_ok_iff]
  refine ⟨⟨fun ⟨_, hlengths, _⟩ => hlengths, fun hlengths => ⟨_, hlengths, rfl⟩⟩, ?_⟩
  rintro written ⟨⟨haxis, hfirst, hinput, hweight, houtput, hbias⟩, rfl⟩
  refine ⟨rfl, accumulates_affineLines hinput hweight hbias, fun other hother => ⟨?_, ?_⟩⟩
  · exact ⟨⟨haxis, hfirst, hinput, hweight, hother.trans houtput, hbias⟩, rfl⟩
  · exact transform?_eq hinput hweight (hother.trans houtput) (length_start hbias)

/-- Two rows of three ones, times three rows of two, give two rows of two elements, each
accumulated from zero over three products. -/
theorem affine_accumulates_ones :
    let ones := List.replicate 6 Single.one
    ExactSizes (.matrix 2 3) (.matrix 3 2) 1 ∧
      ∃ written, affine ones (.matrix 2 3) ones (.matrix 3 2) none (.replicate 4 Single.zero) 1 =
          .ok written ∧ written.complete = true ∧
        Accumulates ones ones none 2 3 2 written.values := by
  intro ones
  have hexact : ExactSizes (.matrix 2 3) (.matrix 3 2) 1 := by constructor <;> decide
  obtain ⟨written, hwritten⟩ : ∃ written, affine ones (.matrix 2 3) ones (.matrix 3 2) none
      (.replicate 4 Single.zero) 1 = .ok written :=
    (affine_accumulates hexact).1.mpr (by decide)
  obtain ⟨hcomplete, haccumulates, -⟩ := (affine_accumulates hexact).2 written hwritten
  exact ⟨hexact, written, hwritten, hcomplete, haccumulates⟩

end Kernel

end Inference
