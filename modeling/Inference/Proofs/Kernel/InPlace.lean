import Inference.Proofs.Kernel.Lines

set_option autoImplicit false
set_option relaxedAutoImplicit false

/-!
# Softmax in place

A machine takes the softmax line by line and changes the output in place: it writes the exponentials
of a line while it adds them up, and then reads them again to multiply them. `Kernel.setLines?` is
that loop, with every position checked and the number of blocks recovered from the length of the
input by a checked division: it gives nothing if a position lies outside its list or if a number is
divided by zero. It always gives what the transform gives, dimensions of zero included.

## Main definitions

* `Kernel.Filled` — what was written at some positions, with all others left alone.
* `Kernel.setLines?` — all lines, one after another, in place and with checked positions.
* `Kernel.Softens` — a list whose lines are the softmaxes of the lines of another.

## Main results

* `Kernel.exists_foldlM_filled` — what a loop fills.
* `Kernel.foldlM_setBlock?` — no position lies outside its list.
* `Kernel.softmax_along_lines` — when there is a result, and what its lines are.
-/

namespace Inference

namespace Kernel

variable {α : Type}

/-! ## Filling positions -/

/-- A new element in place of the one at a position, absent unless there is one. -/
def set? (elements : List α) (position : Nat) (value : α) : Option (List α) :=
  if position < elements.length then some (elements.set position value) else none

/-- A quotient, absent if the divisor is zero. -/
def divide? (dividend divisor : Nat) : Option Nat :=
  if divisor = 0 then none else some (dividend / divisor)

/-- The elements at some positions are what is wanted there, the others are what they were. -/
structure Filled (wanted : Nat → Option α) (positions : Nat → Prop) (before after : List α) :
    Prop where
  length_eq : after.length = before.length
  inside : ∀ p, positions p → after[p]? = wanted p
  outside : ∀ p, ¬positions p → after[p]? = before[p]?

namespace Filled

variable {wanted other : Nat → Option α} {positions more : Nat → Prop}
  {before between after : List α}

/-- Nothing was filled yet. -/
lemma none (wanted : Nat → Option α) (before : List α) :
    Filled wanted (fun _ => False) before before :=
  ⟨rfl, fun _ h => h.elim, fun _ _ => rfl⟩

/-- Positions that are filled one after another. -/
lemma append (h : Filled wanted positions before between) (h' : Filled wanted more between after) :
    Filled wanted (fun p => positions p ∨ more p) before after where
  length_eq := h'.length_eq.trans h.length_eq
  inside p hp := by
    by_cases hmore : more p
    · exact h'.inside p hmore
    · rw [h'.outside p hmore, h.inside p (hp.resolve_right hmore)]
  outside p hp := by
    rw [not_or] at hp
    rw [h'.outside p hp.2, h.outside p hp.1]

/-- Positions that are filled once more have what they were filled with last. -/
lemma again (h : Filled wanted positions before between)
    (h' : Filled other positions between after) : Filled other positions before after where
  length_eq := h'.length_eq.trans h.length_eq
  inside := h'.inside
  outside p hp := by rw [h'.outside p hp, h.outside p hp]

/-- Only which positions are filled counts, and what is wanted at them. -/
lemma congr (h : Filled wanted positions before after) (hpositions : ∀ p, positions p ↔ more p)
    (hwanted : ∀ p, more p → wanted p = other p) : Filled other more before after where
  length_eq := h.length_eq
  inside p hp := by rw [h.inside p ((hpositions p).mpr hp), hwanted p hp]
  outside p hp := h.outside p (mt (hpositions p).mp hp)

end Filled

/-- A position that is there can be filled. -/
lemma exists_set? (wanted : Nat → Option α) {before : List α} {p : Nat} {value : α}
    (hp : p < before.length) (hvalue : wanted p = some value) :
    ∃ after, set? before p value = some after ∧ Filled wanted (· = p) before after := by
  refine ⟨before.set p value, if_pos hp, by simp, ?_, ?_⟩
  · rintro q rfl
    rw [List.getElem?_set_self hp, hvalue]
  · exact fun q hq => List.getElem?_set_ne (Ne.symm hq)

/-- **Loops**: a loop each of whose steps fills positions of a list, when the positions of the steps
before are filled, fills the positions of all steps. What holds of the state before a step is
carried along.

**Proof sketch.** Induction on the number of steps. -/
theorem exists_foldlM_filled {σ : Type} {step : σ → Nat → Option σ} {count : Nat}
    {wanted : Nat → Option α} {positions : Nat → Nat → Prop} (view : σ → List α)
    (holds : Nat → σ → Prop) {start : σ} (hstart : holds 0 start)
    (hstep : ∀ k < count, ∀ state, holds k state →
      Filled wanted (fun p => ∃ k' < k, positions k' p) (view start) (view state) →
        ∃ next, step state k = some next ∧ holds (k + 1) next ∧
          Filled wanted (positions k) (view state) (view next)) :
    ∃ last, (List.range count).foldlM step start = some last ∧ holds count last ∧
      Filled wanted (fun p => ∃ k < count, positions k p) (view start) (view last) := by
  induction count with
  | zero =>
    exact ⟨start, rfl, hstart, (Filled.none wanted (view start)).congr (by simp) fun _ _ => rfl⟩
  | succ count ih =>
    obtain ⟨state, hloop, hholds, hfilled⟩ := ih fun k hk => hstep k (by omega)
    obtain ⟨last, hlast, hholds', hfilled'⟩ := hstep count (by omega) state hholds hfilled
    refine ⟨last, ?_, hholds', (hfilled.append hfilled').congr ?_ fun _ _ => rfl⟩
    · rw [List.range_succ, List.foldlM_append, hloop]
      simp [hlast]
    · intro p
      simp only [Nat.lt_succ_iff_lt_or_eq]
      constructor
      · rintro (⟨k, hk, hp⟩ | hp)
        · exact ⟨k, .inl hk, hp⟩
        · exact ⟨count, .inr rfl, hp⟩
      · rintro ⟨k, hk | rfl, hp⟩
        · exact .inl ⟨k, hk, hp⟩
        · exact .inr hp

/-- The same for a loop whose steps only look at the list that they fill. -/
lemma exists_foldlM_filled_list {step : List α → Nat → Option (List α)} {count : Nat}
    {wanted : Nat → Option α} {positions : Nat → Nat → Prop} {start : List α}
    (hstep : ∀ k < count, ∀ between,
      Filled wanted (fun p => ∃ k' < k, positions k' p) start between →
        ∃ next, step between k = some next ∧ Filled wanted (positions k) between next) :
    ∃ last, (List.range count).foldlM step start = some last ∧
      Filled wanted (fun p => ∃ k < count, positions k p) start last := by
  have hloop : ∃ last, (List.range count).foldlM step start = some last ∧ True ∧
      Filled wanted (fun p => ∃ k < count, positions k p) start last := by
    refine exists_foldlM_filled id (fun _ _ => True) trivial fun k hk between _ hbetween => ?_
    obtain ⟨next, hnext, hfilled⟩ := hstep k hk between hbetween
    exact ⟨next, hnext, trivial, hfilled⟩
  obtain ⟨last, hlast, -, hfilled⟩ := hloop
  exact ⟨last, hlast, hfilled⟩

/-! ## The loop -/

variable [Scalar α]

/-- The largest element of a line that starts at a position. -/
def largest? (input : List α) (size inner base : Nat) : Option α :=
  (List.range size).foldlM (fun largest j => do
    let x ← input[base + j * inner]?
    return Scalar.larger largest x) Scalar.negInfinity

/-- The exponential of an element less the largest of its line. -/
def exponential (largest x : α) : α :=
  Scalar.exp (Scalar.sub x largest)

/-- The output with the exponential of an element of a line, and the sum with it added. -/
def addExponential? (input : List α) (inner base : Nat) (largest : α) (state : List α × α)
    (j : Nat) : Option (List α × α) := do
  let x ← input[base + j * inner]?
  let output ← set? state.1 (base + j * inner) (exponential largest x)
  return (output, Scalar.add state.2 (exponential largest x))

/-- The output with an element of a line multiplied. -/
def scale? (inner base : Nat) (factor : α) (output : List α) (j : Nat) : Option (List α) := do
  let e ← output[base + j * inner]?
  set? output (base + j * inner) (Scalar.mul e factor)

/-- The output after a line was set to the softmax of the line of the input. -/
def setLine? (input : List α) (size inner o : Nat) (output : List α) (i : Nat) :
    Option (List α) := do
  let base := o * size * inner + i
  let largest ← largest? input size inner base
  let (exponentials, sum) ←
    (List.range size).foldlM (addExponential? input inner base largest) (output, Scalar.zero)
  if Scalar.less Scalar.zero sum then
    (List.range size).foldlM (scale? inner base (Scalar.div Scalar.one sum)) exponentials
  else return exponentials

/-- The output after all lines of a block were set. -/
def setBlock? (input : List α) (size inner : Nat) (output : List α) (o : Nat) : Option (List α) :=
  (List.range inner).foldlM (setLine? input size inner o) output

/-- The output after all lines were set, unless these have no elements. The dimensions behind the
axis must be there, and the number of blocks is recovered from the length of the input. -/
def setLines? (input : List α) (dims : List Nat) (axis : Nat) (output : List α) :
    Option (List α) := do
  let size ← dims[axis]?
  if size = 0 then return output
  let behind ← between? dims (axis + 1) dims.length
  let outer ← divide? input.length (max (size * behind.prod) 1)
  (List.range outer).foldlM (setBlock? input size behind.prod) output

variable {outer size inner o i : Nat} {input output line : List α}

/-- The elements of a line are counted from its first. -/
lemma base_add (size inner o j i : Nat) :
    o * size * inner + i + j * inner = place size inner o j i := by
  rw [place]
  omega

/-- The largest element of a line is found.

**Proof sketch.** Induction on the number of elements that were compared: the next one is at its
place. -/
lemma largest?_eq (hline : Line input size inner o i line) :
    largest? input size inner (o * size * inner + i) =
      some (line.foldl Scalar.larger Scalar.negInfinity) := by
  have hsteps : ∀ count ≤ size, largest? input count inner (o * size * inner + i) =
      some ((line.take count).foldl Scalar.larger Scalar.negInfinity) := by
    intro count hcount
    induction count with
    | zero => simp [largest?]
    | succ count ih =>
      obtain ⟨x, helement, hx⟩ := hline.element count hcount
      have hloop := ih (by omega)
      rw [largest?] at hloop ⊢
      rw [List.range_succ, List.foldlM_append, hloop, List.take_add_one, hx]
      simp [base_add, helement]
  have hall := hsteps size (Nat.le_refl _)
  rwa [← hline.length_eq, List.take_length, hline.length_eq] at hall

/-- The exponential of an element that is there is written where the output has a place for it. -/
lemma exists_addExponential? {largest x : α} {state : List α × α} {j : Nat}
    (hx : input[place size inner o j i]? = some x)
    (hroom : place size inner o j i < state.1.length) :
    ∃ after, addExponential? input inner (o * size * inner + i) largest state j =
        some (after, Scalar.add state.2 (exponential largest x)) ∧
      Filled (fun p => input[p]?.map (exponential largest)) (· = place size inner o j i) state.1
        after := by
  obtain ⟨after, hset, hfilled⟩ := exists_set? (fun p => input[p]?.map (exponential largest)) hroom
    (by rw [hx, Option.map_some])
  exact ⟨after, by simp [addExponential?, base_add, hx, hset], hfilled⟩

/-- The exponentials of a line are written and added up. -/
lemma exists_foldlM_addExponential? (hline : Line input size inner o i line)
    (hroom : ∀ j < size, place size inner o j i < output.length) (largest : α) :
    ∃ after, (List.range size).foldlM
        (addExponential? input inner (o * size * inner + i) largest) (output, Scalar.zero) =
          some (after, (line.map (exponential largest)).foldl Scalar.add Scalar.zero) ∧
      Filled (fun p => input[p]?.map (exponential largest))
        (fun p => ∃ j < size, p = place size inner o j i) output after := by
  have hloop : ∃ last, (List.range size).foldlM
      (addExponential? input inner (o * size * inner + i) largest) (output, Scalar.zero) =
        some last ∧
      last.2 = ((line.map (exponential largest)).take size).foldl Scalar.add Scalar.zero ∧
      Filled (fun p => input[p]?.map (exponential largest))
        (fun p => ∃ j < size, p = place size inner o j i) output last.1 := by
    refine exists_foldlM_filled Prod.fst (fun k state =>
      state.2 = ((line.map (exponential largest)).take k).foldl Scalar.add Scalar.zero) rfl ?_
    intro j hj state hsum hfilled
    obtain ⟨x, helement, hx⟩ := hline.element j hj
    have hposition : place size inner o j i < state.1.length := by
      rw [hfilled.length_eq]
      exact hroom j hj
    obtain ⟨after, hstep, hafter⟩ := exists_addExponential? helement hposition
    exact ⟨_, hstep, by simp [List.take_add_one, hx, hsum], hafter⟩
  obtain ⟨⟨after, sum⟩, hloop, hsum, hfilled⟩ := hloop
  rw [List.take_of_length_le (by simp [hline.length_eq])] at hsum
  subst hsum
  exact ⟨after, hloop, hfilled⟩

/-- An element that is there is multiplied. -/
lemma exists_scale? (wanted : Nat → Option α) (factor : α) {e : α} {before : List α} {j : Nat}
    (he : before[place size inner o j i]? = some e)
    (hwanted : wanted (place size inner o j i) = some (Scalar.mul e factor)) :
    ∃ after, scale? inner (o * size * inner + i) factor before j = some after ∧
      Filled wanted (· = place size inner o j i) before after := by
  obtain ⟨hroom, -⟩ := List.getElem?_eq_some_iff.mp he
  obtain ⟨after, hset, hfilled⟩ := exists_set? wanted hroom hwanted
  exact ⟨after, by simp [scale?, base_add, he, hset], hfilled⟩

/-- The elements of a line are multiplied.

**Proof sketch.** When an element is read, only those before it were multiplied, and they are at
other positions. -/
lemma exists_foldlM_scale? (hi : i < inner) {exponentials : List α}
    (hroom : ∀ j < size, place size inner o j i < exponentials.length) (factor : α) :
    ∃ after, (List.range size).foldlM (scale? inner (o * size * inner + i) factor) exponentials =
        some after ∧
      Filled (fun p => exponentials[p]?.map fun e => Scalar.mul e factor)
        (fun p => ∃ j < size, p = place size inner o j i) exponentials after := by
  refine exists_foldlM_filled_list fun j hj between hfilled => ?_
  have hother : ¬∃ k < j, place size inner o j i = place size inner o k i := by
    rintro ⟨k, hk, hplace⟩
    obtain ⟨-, rfl, -⟩ := place_inj hj hi (by omega) hi hplace
    exact Nat.lt_irrefl _ hk
  obtain ⟨e, helement⟩ : ∃ e, exponentials[place size inner o j i]? = some e :=
    ⟨_, List.getElem?_eq_getElem (hroom j hj)⟩
  have hread := (hfilled.outside _ hother).trans helement
  exact exists_scale? (fun p => exponentials[p]?.map fun e => Scalar.mul e factor) factor hread
    (by rw [helement, Option.map_some])

/-- **A line**: setting a line finds all positions and fills those of the line with what the line of
the result is.

**Proof sketch.** The exponentials are written and added up (`exists_foldlM_addExponential?`). If
the sum is positive they are multiplied (`exists_foldlM_scale?`), otherwise they stay. -/
theorem exists_setLine? {values : List α} (hi : i < inner)
    (hline : Line input size inner o i line)
    (hvalues : Line values size inner o i (softmaxLine line))
    (hroom : ∀ j < size, place size inner o j i < output.length) :
    ∃ after, setLine? input size inner o output i = some after ∧
      Filled (fun p => values[p]?) (fun p => ∃ j < size, p = place size inner o j i) output
        after := by
  set largest := line.foldl Scalar.larger Scalar.negInfinity with hlargest
  set sum := (line.map (exponential largest)).foldl Scalar.add Scalar.zero with hsum
  obtain ⟨exponentials, hexponentials, hwritten⟩ :=
    exists_foldlM_addExponential? hline hroom largest
  have hset : setLine? input size inner o output i =
      if Scalar.less Scalar.zero sum then
        (List.range size).foldlM (scale? inner (o * size * inner + i)
          (Scalar.div Scalar.one sum)) exponentials
      else some exponentials := by
    simp [setLine?, largest?_eq hline, ← hlargest, hexponentials, ← hsum]
  have hsoftmax : softmaxLine line =
      if Scalar.less Scalar.zero sum then
        (line.map (exponential largest)).map fun e => Scalar.mul e (Scalar.div Scalar.one sum)
      else line.map (exponential largest) := rfl
  by_cases hpositive : Scalar.less Scalar.zero sum
  · rw [if_pos hpositive] at hset hsoftmax
    obtain ⟨after, hscaled, hfilled⟩ := exists_foldlM_scale? hi
      (fun j hj => by rw [hwritten.length_eq]; exact hroom j hj) (Scalar.div Scalar.one sum)
    refine ⟨after, hset.trans hscaled, (hwritten.again hfilled).congr (fun _ => Iff.rfl) ?_⟩
    rintro p ⟨j, hj, rfl⟩
    rw [hwritten.inside _ ⟨j, hj, rfl⟩, ← hline.getElem?_eq hj, ← hvalues.getElem?_eq hj, hsoftmax,
      List.getElem?_map, List.getElem?_map]
  · rw [if_neg hpositive] at hset hsoftmax
    refine ⟨exponentials, hset, hwritten.congr (fun _ => Iff.rfl) ?_⟩
    rintro p ⟨j, hj, rfl⟩
    rw [← hline.getElem?_eq hj, ← hvalues.getElem?_eq hj, hsoftmax, List.getElem?_map]

/-- The lines of a block are set one after another. -/
lemma exists_setBlock? (hinput : input.length = outer * (size * inner))
    (houtput : output.length = outer * (size * inner)) (ho : o < outer) :
    ∃ after, setBlock? input size inner output o = some after ∧
      Filled (fun p => (softmaxBlocks outer size inner input)[p]?)
        (fun p => ∃ i < inner, ∃ j < size, p = place size inner o j i) output after := by
  refine exists_foldlM_filled_list fun i hi between hfilled => ?_
  obtain ⟨line, hline, hvalues⟩ := line_softmaxBlocks hinput ho hi
  have hroom : ∀ j < size, place size inner o j i < between.length := fun j hj =>
    (place_lt ho hj hi).trans_eq (houtput.symm.trans hfilled.length_eq.symm)
  exact exists_setLine? hi hline hvalues hroom

/-- **Positions**: no position of the loop lies outside its list, and the loop gives the softmax of
all blocks, whatever the output held.

**Proof sketch.** The blocks fill the positions of all their lines (`exists_setBlock?`), and every
position is one of them (`exists_place`). -/
theorem foldlM_setBlock? (hinput : input.length = outer * (size * inner))
    (houtput : output.length = outer * (size * inner)) :
    (List.range outer).foldlM (setBlock? input size inner) output =
      some (softmaxBlocks outer size inner input) := by
  obtain ⟨after, hloop, hfilled⟩ : ∃ last,
      (List.range outer).foldlM (setBlock? input size inner) output = some last ∧
        Filled (fun p => (softmaxBlocks outer size inner input)[p]?)
          (fun p => ∃ o < outer, ∃ i < inner, ∃ j < size, p = place size inner o j i)
          output last :=
    exists_foldlM_filled_list fun _ ho _ hfilled =>
      exists_setBlock? hinput (hfilled.length_eq.trans houtput) ho
  have hlength : after.length = (softmaxBlocks outer size inner input).length := by
    rw [hfilled.length_eq, houtput, length_softmaxBlocks hinput]
  rw [hloop, Option.some.injEq]
  apply List.ext_getElem?
  intro p
  rcases Nat.lt_or_ge p (outer * (size * inner)) with hp | hge
  · obtain ⟨o, ho, j, hj, i, hi, rfl⟩ := exists_place hp
    exact hfilled.inside _ ⟨o, ho, i, hi, j, hj, rfl⟩
  · rw [List.getElem?_eq_none (by rw [hfilled.length_eq, houtput]; exact hge),
      List.getElem?_eq_none (by rw [length_softmaxBlocks hinput]; exact hge)]

/-! ## The transform -/

/-- All elements of a list were replaced, line by line, by the softmaxes of the lines of another:
every position is at exactly one place. -/
structure Softens (input : List α) (outer size inner : Nat) (values : List α) : Prop where
  length_eq : values.length = outer * (size * inner)
  places : ∀ position < outer * (size * inner), ∃! at' : Nat × Nat × Nat,
    (at'.1 < outer ∧ at'.2.1 < size ∧ at'.2.2 < inner) ∧
      place size inner at'.1 at'.2.1 at'.2.2 = position
  line : ∀ o < outer, ∀ i < inner, ∃ line, Line input size inner o i line ∧
    Line values size inner o i (softmaxLine line)

/-- The softmax of all blocks does this. -/
theorem softens_softmaxBlocks (hinput : input.length = outer * (size * inner)) :
    Softens input outer size inner (softmaxBlocks outer size inner input) where
  length_eq := length_softmaxBlocks hinput
  places _ h := existsUnique_place h
  line _ ho _ hi := line_softmaxBlocks hinput ho hi

/-- A line of the result depends on the line of the input at its places only. -/
lemma Softens.agree {other values others : List α} (h : Softens input outer size inner values)
    (h' : Softens other outer size inner others) (ho : o < outer) (hi : i < inner)
    (hagree : ∀ j < size, input[place size inner o j i]? = other[place size inner o j i]?)
    {j : Nat} (hj : j < size) :
    values[place size inner o j i]? = others[place size inner o j i]? := by
  obtain ⟨line, hline, hvalues⟩ := h.line o ho i hi
  obtain ⟨another, hanother, hothers⟩ := h'.line o ho i hi
  obtain rfl := hline.eq_of_agree hanother hagree
  rw [← hvalues.getElem?_eq hj, ← hothers.getElem?_eq hj]

/-- The number of blocks may be recovered from the number of elements: it only differs when the
blocks have no elements. -/
lemma softmaxBlocks_recovered (hinput : input.length = outer * (size * inner)) :
    softmaxBlocks (input.length / max (size * inner) 1) size inner input =
      softmaxBlocks outer size inner input := by
  rcases Nat.eq_zero_or_pos (size * inner) with hempty | hpos
  · have hnone (count : Nat) : softmaxBlocks count size inner input = [] := by
      rw [← List.length_eq_zero_iff, length_softmaxBlocks (by rw [hinput, hempty]; simp), hempty,
        Nat.mul_zero]
    rw [hnone, hnone]
  · rw [hinput, Nat.max_eq_left hpos, Nat.mul_div_cancel _ hpos]

variable {shape : Shape} {axis : Nat}

/-- A shape has the elements before an axis, along it and behind it. -/
lemma prod_dims (hsize : shape.dims[axis]? = some size) : shape.dims.prod =
    (shape.dims.take axis).prod * (size * (shape.dims.drop (axis + 1)).prod) := by
  have hcount := Shape.elementCount_of_dim? hsize
  rwa [Shape.elementCount, Shape.product_eq_prod, Shape.product_eq_prod, Shape.product_eq_prod]
    at hcount

/-- What softmax accepts, in terms of the product of the dimensions. -/
lemma softmax_accepts_iff_prod :
    (∃ values, softmax input output shape axis = .ok values) ↔
      axis < shape.rank ∧ input.length = shape.dims.prod ∧ output.length = shape.dims.prod := by
  rw [softmax_accepts_iff, Shape.elementCount, Shape.product_eq_prod, eq_comm,
    eq_comm (b := output.length)]

/-- If lines have no elements there is nothing that could be written. -/
lemma softmaxBlocks_of_size_zero (hsize : shape.dims[axis]? = some 0)
    (hinput : input.length = shape.dims.prod) (houtput : output.length = shape.dims.prod) :
    output = softmaxBlocks (shape.dims.take axis).prod 0 (shape.dims.drop (axis + 1)).prod
      input := by
  have hcount := prod_dims hsize
  have hnone : output.length = 0 := by simpa [hcount] using houtput
  have hblocks := length_softmaxBlocks (hinput.trans hcount)
  rw [List.length_eq_zero_iff] at hnone
  rw [hnone, eq_comm, ← List.length_eq_zero_iff, hblocks, Nat.zero_mul, Nat.mul_zero]

/-- Softmax gives the softmax of all blocks. -/
lemma softmax_of_dims (hsize : shape.dims[axis]? = some size)
    (hinput : input.length = shape.dims.prod) (houtput : output.length = shape.dims.prod) :
    softmax input output shape axis = .ok (softmaxBlocks (shape.dims.take axis).prod size
      (shape.dims.drop (axis + 1)).prod input) := by
  have hcount : shape.elementCount = shape.dims.prod := Shape.product_eq_prod _
  simp only [softmax, bind_eq_ok_iff, orFault_eq_ok_iff, checkLength_eq_ok_iff, exists_const]
  refine ⟨size, hsize, hcount.trans hinput.symm, hcount.trans houtput.symm, ?_⟩
  by_cases hempty : size = 0
  · subst hempty
    rw [if_pos rfl, pure_eq_ok_iff]
    exact (softmaxBlocks_of_size_zero hsize hinput houtput).symm
  · rw [if_neg hempty, pure_eq_ok_iff, Shape.product_eq_prod]
    exact (softmaxBlocks_recovered (hinput.trans (prod_dims hsize))).symm

/-- So does the loop. -/
lemma setLines?_of_dims (hsize : shape.dims[axis]? = some size)
    (hinput : input.length = shape.dims.prod) (houtput : output.length = shape.dims.prod) :
    setLines? input shape.dims axis output = some (softmaxBlocks (shape.dims.take axis).prod size
      (shape.dims.drop (axis + 1)).prod input) := by
  have hcount := prod_dims hsize
  by_cases hempty : size = 0
  · subst hempty
    simp only [setLines?, hsize, Option.bind_eq_bind, Option.bind_some, if_pos]
    exact congrArg some (softmaxBlocks_of_size_zero hsize hinput houtput)
  · have hlt : axis < shape.dims.length := (List.getElem?_eq_some_iff.mp hsize).1
    have hbehind : between? shape.dims (axis + 1) shape.dims.length =
        some (shape.dims.drop (axis + 1)) := by
      rw [between?, if_pos ⟨hlt, Nat.le_refl _⟩, List.take_of_length_le (by simp)]
    have hdivide : divide? input.length (max (size * (shape.dims.drop (axis + 1)).prod) 1) =
        some (input.length / max (size * (shape.dims.drop (axis + 1)).prod) 1) :=
      if_neg (by omega)
    have hblocks := (@div_mul_block (shape.dims.take axis).prod
      (size * (shape.dims.drop (axis + 1)).prod)).symm
    rw [← hcount, ← hinput] at hblocks
    simp only [setLines?, hsize, hempty, hbehind, hdivide, Option.bind_eq_bind, Option.bind_some,
      if_false]
    rw [foldlM_setBlock? hblocks (houtput.trans (hinput.symm.trans hblocks)),
      softmaxBlocks_recovered (hinput.trans hcount)]

/-- **Softmax**: with `outer` and `inner` the products of the dimensions before and behind the axis,
softmax gives a result exactly when the axis is below the rank and the operands have the elements of
the shape. Every line of the result, at the places `(o, 0, i)` to `(o, size - 1, i)`, is then the
softmax of the line of the input at these places, and depends on nothing else: not on other lines,
nor on what the output held. The loop finds every position it uses and divides by no zero.

**Proof sketch.** When there is a result is known (`softmax_accepts_iff`). It is the softmax of all
blocks, which the loop gives as well (`softmax_of_dims`), and its lines are softmaxes of lines
(`softens_softmaxBlocks`). -/
theorem softmax_along_lines (input output : List α) (shape : Shape) (axis : Nat) :
    let outer := (shape.dims.take axis).prod
    let inner := (shape.dims.drop (axis + 1)).prod
    ((∃ values, softmax input output shape axis = .ok values) ↔
      axis < shape.rank ∧ input.length = shape.dims.prod ∧ output.length = shape.dims.prod) ∧
    ∀ values, softmax input output shape axis = .ok values →
      ∃ size, shape.dims[axis]? = some size ∧ Softens input outer size inner values ∧
        (∀ old, old.length = output.length → softmax input old shape axis = .ok values ∧
          setLines? input shape.dims axis old = some values) ∧
        ∀ other others, softmax other output shape axis = .ok others →
          ∀ o < outer, ∀ i < inner,
            (∀ j < size, input[place size inner o j i]? = other[place size inner o j i]?) →
              ∀ j < size, values[place size inner o j i]? = others[place size inner o j i]? := by
  intro outer inner
  refine ⟨softmax_accepts_iff_prod, fun values hvalues => ?_⟩
  obtain ⟨haxis, hinput, houtput⟩ := softmax_accepts_iff_prod.mp ⟨values, hvalues⟩
  obtain ⟨size, hsize⟩ := Shape.exists_dim?_iff.mpr haxis
  have hsoftens {elements : List α} (h : elements.length = shape.dims.prod) :=
    softens_softmaxBlocks (h.trans (prod_dims hsize))
  obtain rfl := Except.ok.inj (hvalues.symm.trans (softmax_of_dims hsize hinput houtput))
  refine ⟨size, hsize, hsoftens hinput, fun old hold => ?_, fun other others hothers => ?_⟩
  · have hlength := hold.trans houtput
    exact ⟨softmax_of_dims hsize hinput hlength, setLines?_of_dims hsize hinput hlength⟩
  · obtain ⟨-, hother, -⟩ := softmax_accepts_iff_prod.mp ⟨others, hothers⟩
    obtain rfl := Except.ok.inj (hothers.symm.trans (softmax_of_dims hsize hother houtput))
    intro o ho i hi hagree j hj
    exact (hsoftens hinput).agree (hsoftens hother) ho hi hagree hj

end Kernel

end Inference
