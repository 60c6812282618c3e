import Inference.Proofs.Kernel.Transform

set_option autoImplicit false
set_option relaxedAutoImplicit false

/-!
# What kernels write

A kernel is given the old contents of its output and lays new ones over them. This file shows that
it leaves as many values as there were, and that nothing of the old contents is left in them if it
runs to its end: only their number counts. It holds for every interpretation of the arithmetic. The
kernels that can give the old contents back, softmax along an axis without elements and the affine
transform of an input without rows, have no contents to give back.

## Main definitions

* `Kernel.Overwrites` — a kernel that replaces all of its output.
* `Kernel.exponentialRows`, `Kernel.softmaxRows` — the softmax of a block, row by row.

## Main results

* `Kernel.overwrites_unary`, `Kernel.overwrites_binary`, `Kernel.overwrites_softmax`,
  `Kernel.overwrites_affine` — each form of kernel does so.
-/

namespace Inference

/-- A shape has the elements before an axis, along it and behind it. -/
lemma Shape.elementCount_of_dim? {shape : Shape} {axis size : Nat}
    (h : shape.dim? axis = some size) :
    shape.elementCount = Shape.product (shape.dims.take axis) *
      (size * Shape.product (shape.dims.drop (axis + 1))) := by
  obtain ⟨hlt, rfl⟩ := List.getElem?_eq_some_iff.mp h
  rw [Shape.elementCount, Shape.product_eq_prod, Shape.product_eq_prod, Shape.product_eq_prod,
    ← List.prod_cons, ← List.drop_eq_getElem_cons, ← List.prod_append, List.take_append_drop]

namespace Kernel

variable {α : Type}

/-- A kernel, as a function of the old contents of its output, replaces all of them if it runs to
its end: it leaves as many values as there were, and whether it does so and which values they are
depends on the number only. -/
structure Overwrites (kernel : List α → Except KernelFault (Written α)) : Prop where
  fills : ∀ old written, kernel old = .ok written → written.values.length = old.length
  ignores : ∀ old other, old.length = other.length → kernel old = kernel other ∨
    ∃ written changed, kernel old = .ok written ∧ kernel other = .ok changed ∧
      written.complete = false ∧ changed.complete = false

/-- A kernel that always runs to its end replaces its output if it does not look at it. -/
lemma overwrites_whole {kernel : List α → Except KernelFault (List α)}
    (hfills : ∀ old values, kernel old = .ok values → values.length = old.length)
    (hignores : ∀ old other, old.length = other.length → kernel old = kernel other) :
    Overwrites fun old => (kernel old).map .whole where
  fills old written h := by
    obtain ⟨values, hvalues, rfl⟩ := map_eq_ok_iff.mp h
    exact hfills old values hvalues
  ignores old other h := .inl (congrArg (Except.map Written.whole) (hignores old other h))

/-! ## Elementwise kernels -/

/-- A kernel on one operand replaces its output. -/
theorem overwrites_unary (op : String) (f : α → α) (input : List α) :
    Overwrites fun output => (unary op f input output).map .whole := by
  apply overwrites_whole
  · intro old values h
    have hlength := unary_accepts_iff.mp ⟨values, h⟩
    simp only [unary, bind_eq_ok_iff, pure_eq_ok_iff] at h
    obtain ⟨-, -, rfl⟩ := h
    rw [List.length_map, hlength]
  · intro old other h
    rw [unary, unary, h]

/-- A kernel on two operands replaces its output. -/
theorem overwrites_binary (op : String) (f : α → α → α) (left right : List α) :
    Overwrites fun output => (binary op f left right output).map .whole := by
  apply overwrites_whole
  · intro old values h
    obtain ⟨hright, hlength⟩ := binary_accepts_iff.mp ⟨values, h⟩
    simp only [binary, bind_eq_ok_iff, pure_eq_ok_iff] at h
    obtain ⟨-, -, -, -, rfl⟩ := h
    exact length_zipWith_of_width f hlength (hright.symm.trans hlength)
  · intro old other h
    rw [binary, binary, h]

variable [Scalar α]

/-! ## Softmax -/

/-- The rows of the exponentials in the softmax of a block. -/
def exponentialRows (size inner : Nat) (block : List α) : List (List α) :=
  (rows size inner block).map
    (List.zipWith (fun largest x => Scalar.exp (Scalar.sub x largest))
      ((rows size inner block).foldl (List.zipWith Scalar.larger)
        (List.replicate inner Scalar.negInfinity)))

/-- The rows of the softmax of a block. -/
def softmaxRows (size inner : Nat) (block : List α) : List (List α) :=
  (exponentialRows size inner block).map
    (List.zipWith normalize ((exponentialRows size inner block).foldl (List.zipWith Scalar.add)
      (List.replicate inner Scalar.zero)))

/-- The softmax of a block is its rows, one after another. -/
lemma softmaxBlock_eq (size inner : Nat) (block : List α) :
    softmaxBlock size inner block = (softmaxRows size inner block).flatten := rfl

/-- There are as many rows as the block has. -/
lemma length_softmaxRows (size inner : Nat) (block : List α) :
    (softmaxRows size inner block).length = size := by
  simp [softmaxRows, exponentialRows]

/-- The rows of the exponentials are as wide as the rows of the block. -/
lemma length_of_mem_exponentialRows {size inner : Nat} {block : List α}
    (h : block.length = size * inner) :
    ∀ row ∈ exponentialRows size inner block, row.length = inner := by
  have hlines := length_of_mem_rows (Nat.le_of_eq h.symm)
  have hmaxima : ((rows size inner block).foldl (List.zipWith Scalar.larger)
      (List.replicate inner Scalar.negInfinity)).length = inner :=
    length_foldl_of_width List.length_replicate fun row line hline hrow =>
      length_zipWith_of_width _ hrow (hlines line hline)
  rw [exponentialRows, List.forall_mem_map]
  exact fun line hline => length_zipWith_of_width _ hmaxima (hlines line hline)

/-- So are the rows of the softmax. -/
lemma length_of_mem_softmaxRows {size inner : Nat} {block : List α}
    (h : block.length = size * inner) :
    ∀ row ∈ softmaxRows size inner block, row.length = inner := by
  have hexponentials := length_of_mem_exponentialRows h
  have hsums : ((exponentialRows size inner block).foldl (List.zipWith Scalar.add)
      (List.replicate inner Scalar.zero)).length = inner :=
    length_foldl_of_width List.length_replicate fun row line hline hrow =>
      length_zipWith_of_width _ hrow (hexponentials line hline)
  rw [softmaxRows, List.forall_mem_map]
  exact fun line hline => length_zipWith_of_width _ hsums (hexponentials line hline)

/-- The softmax of a block has the size of the block. -/
lemma length_softmaxBlock {size inner : Nat} {block : List α} (h : block.length = size * inner) :
    (softmaxBlock size inner block).length = size * inner := by
  rw [softmaxBlock_eq, length_flatten_of_width (length_of_mem_softmaxRows h), length_softmaxRows]

/-- The blocks that an input is cut into by its size make up the input. -/
lemma div_mul_block {outer block : Nat} : outer * block / max block 1 * block = outer * block := by
  rcases Nat.eq_zero_or_pos block with rfl | hpos
  · rw [Nat.mul_zero, Nat.mul_zero]
  · rw [Nat.max_eq_left hpos, Nat.mul_div_cancel _ hpos]

/-- Softmax gives as many values as the output has. -/
lemma length_softmax {input old values : List α} {shape : Shape} {axis : Nat}
    (h : softmax input old shape axis = .ok values) : values.length = old.length := by
  obtain ⟨-, hinput, hold⟩ := softmax_accepts_iff.mp ⟨values, h⟩
  simp only [softmax, bind_eq_ok_iff, orFault_eq_ok_iff] at h
  obtain ⟨size, hdim, -, -, -, -, h⟩ := h
  split at h
  · rw [pure_eq_ok_iff.mp h]
  · rw [pure_eq_ok_iff.mp h]
    have hcount := Shape.elementCount_of_dim? hdim
    set inner := Shape.product (shape.dims.drop (axis + 1))
    set outer := Shape.product (shape.dims.take axis)
    have hblocks : input.length / max (size * inner) 1 * (size * inner) = input.length := by
      rw [← hinput, hcount, div_mul_block]
    have hwidth : ∀ block ∈ (rows (input.length / max (size * inner) 1) (size * inner) input).map
        (softmaxBlock size inner), block.length = size * inner := by
      rw [List.forall_mem_map]
      exact fun block hblock =>
        length_softmaxBlock (length_of_mem_rows (Nat.le_of_eq hblocks) block hblock)
    rw [length_flatten_of_width hwidth, List.length_map, length_rows, hblocks, ← hinput, hold]

/-- Softmax replaces its output. -/
theorem overwrites_softmax (input : List α) (shape : Shape) (axis : Nat) :
    Overwrites fun output => (softmax input output shape axis).map .whole := by
  refine overwrites_whole (fun _ _ => length_softmax) fun old other h => ?_
  cases hdim : shape.dim? axis with
  | none =>
    rw [softmax, softmax, hdim]
    rfl
  | some size =>
    have hsize (f : Nat → Except KernelFault (List α)) : (Except.ok size >>= f) = f size := rfl
    by_cases hcount : shape.elementCount = other.length
    · by_cases hempty : size = 0
      · have hnone : shape.elementCount = 0 := by
          rw [Shape.elementCount_of_dim? hdim, hempty, Nat.zero_mul, Nat.mul_zero]
        have hother := List.length_eq_zero_iff.mp (hcount.symm.trans hnone)
        have hold := List.length_eq_zero_iff.mp (h.trans (hcount.symm.trans hnone))
        rw [hother, hold]
      · simp only [softmax, hdim, orFault, hsize, if_neg hempty, h]
    · simp only [softmax, hdim, orFault, hsize, checkLength, h, if_neg hcount]
      rfl

/-! ## The affine transform -/

/-- Whether the affine transform refuses its operands, and why, depends on the length of the output
only. -/
lemma affine_eq_error {input weight old other : List α} {inputShape weightShape : Shape}
    {bias : Option (List α)} {axis : Nat} (hlength : old.length = other.length)
    {fault : KernelFault}
    (h : affine input inputShape weight weightShape bias old axis = .error fault) :
    affine input inputShape weight weightShape bias other axis = .error fault := by
  have hchecks : (fun _ => ()) <$> affine input inputShape weight weightShape bias old axis =
      (fun _ => ()) <$> affine input inputShape weight weightShape bias other axis := by
    cases bias <;> simp only [affine, hlength, map_bind, map_pure, apply_ite]
  rw [h] at hchecks
  cases hother : affine input inputShape weight weightShape bias other axis with
  | ok written => rw [hother] at hchecks; cases hchecks
  | error found => rw [hother] at hchecks; cases hchecks; rfl

/-- The affine transform replaces its output, unless it breaks off.

**Proof sketch.** If it sets no rows, the output has no elements. Otherwise it runs to its end over
operands that are measured (`measured_of_complete`) and only over those, and then sets the same rows
(`loop_setRow_eq`). Whether an output is measured is a matter of its length. -/
theorem overwrites_affine (input : List α) (inputShape : Shape) (weight : List α)
    (weightShape : Shape) (bias : Option (List α)) (axis : Nat) :
    Overwrites fun output => affine input inputShape weight weightShape bias output axis where
  fills old written h := by
    obtain ⟨outer, k, n, -, -, -, -, -, hbias, rfl⟩ := affine_eq_ok_iff.mp h
    exact length_loop (fun i row hrow => (length_setRow hbias i row).trans hrow) rfl
  ignores old other hlength := by
    cases hold : affine input inputShape weight weightShape bias old axis with
    | error fault => exact .inl (affine_eq_error hlength hold).symm
    | ok written =>
      obtain ⟨outer, k, n, hinputShape, hweightShape, hinput, hweight, houtput, hbias, rfl⟩ :=
        affine_eq_ok_iff.mp hold
      rw [affine_eq_ok_iff.mpr ⟨outer, k, n, hinputShape, hweightShape, hinput, hweight,
        hlength ▸ houtput, hbias, rfl⟩]
      by_cases hrows : outer = 0
      · subst hrows
        rw [UInt64.zero_mul, UInt64.toNat_zero] at houtput
        have hother := List.length_eq_zero_iff.mp (hlength.symm.trans houtput)
        rw [List.length_eq_zero_iff.mp houtput, hother]
        exact .inl rfl
      · by_cases hmeasured : Measured input weight old outer.toNat k.toNat n.toNat
        · have hchanged : Measured input weight other outer.toNat k.toNat n.toNat :=
            { hmeasured with output_eq := hlength ▸ hmeasured.output_eq }
          have hlt (a : UInt64) : a.toNat < wordLimit := UInt64.toNat_lt a
          rw [loop_setRow_eq hmeasured (hinput ▸ hlt _) (hweight ▸ hlt _) (houtput ▸ hlt _) hbias,
            loop_setRow_eq hchanged (hinput ▸ hlt _) (hweight ▸ hlt _)
              (hlength ▸ houtput ▸ hlt _) hbias]
          exact .inl rfl
        · have hpart {output : List α} (heq : output.length = old.length) :
              (loop (setRow input weight bias k n) outer.toNat 0 output).complete = false := by
            rw [← Bool.not_eq_true]
            intro hcomplete
            have hall := measured_of_complete hrows hinput hweight (heq.trans houtput) hbias
              hcomplete
            exact hmeasured { hall with output_eq := heq ▸ hall.output_eq }
          exact .inr ⟨_, _, rfl, rfl, hpart rfl, hpart hlength.symm⟩

end Kernel

end Inference
