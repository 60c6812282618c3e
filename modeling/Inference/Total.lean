set_option autoImplicit false
set_option relaxedAutoImplicit false

/-!
# Totals

The sum of a list of counts.

## Main definitions

* `total` — the sum.

## Main results

* `total_append` — the total of two lists after one another.
-/

namespace Inference

/-- The sum of a list of counts. -/
def total : List Nat → Nat
  | [] => 0
  | n :: rest => n + total rest

@[simp]
theorem total_append (ns ms : List Nat) : total (ns ++ ms) = total ns + total ms := by
  induction ns with
  | nil => simp [total]
  | cons n rest ih => simp [total, ih, Nat.add_assoc]

end Inference
