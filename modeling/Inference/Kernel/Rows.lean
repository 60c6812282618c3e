set_option autoImplicit false
set_option relaxedAutoImplicit false

/-!
# Rows

Variables are stored flat, outermost dimension first. Kernels that work on more than one
dimension cut them into rows.

## Main definitions

* `Kernel.rows` — the first rows of a flat list.

## Main results

* `Kernel.length_rows` — the number of rows.
-/

namespace Inference

namespace Kernel

variable {α : Type}

/-- The first `count` rows of `width` elements each. -/
def rows (count width : Nat) (elements : List α) : List (List α) :=
  match count with
  | 0 => []
  | count + 1 => elements.take width :: rows count width (elements.drop width)

@[simp]
theorem length_rows (count width : Nat) (elements : List α) :
    (rows count width elements).length = count := by
  induction count generalizing elements with
  | zero => rfl
  | succ count ih => simp [rows, ih]

end Kernel

end Inference
