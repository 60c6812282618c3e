set_option autoImplicit false
set_option relaxedAutoImplicit false

/-!
# Loops in place

A kernel that writes its output step by step reaches the parts it works on by positions, and the
positions are words, which wrap. Asking for a part that is not there ends the kernel where it
stands: what was written until then stays.

## Main definitions

* `Kernel.Written` — what a kernel leaves in its output, and whether it ran to its end.
* `Kernel.between?`, `Kernel.splice` — the elements between two positions, and others laid over
  them.
* `Kernel.loop` — steps on an output, up to the first that does not run to its end.
-/

namespace Inference

namespace Kernel

/-- What a kernel leaves in its output. -/
structure Written (α : Type) where
  values : List α
  /-- Whether the kernel ran to its end. If not, it asked for elements that an operand does not
  have. -/
  complete : Bool
deriving DecidableEq

variable {α : Type}

/-- The output of a kernel that ran to its end. -/
def Written.whole (values : List α) : Written α :=
  ⟨values, true⟩

/-- The output of a kernel that broke off. -/
def Written.part (values : List α) : Written α :=
  ⟨values, false⟩

/-- The elements from a position up to another, absent unless all of them are there. -/
def between? (elements : List α) (start stop : Nat) : Option (List α) :=
  if start ≤ stop ∧ stop ≤ elements.length then some ((elements.drop start).take (stop - start))
  else none

/-- Elements with others laid over them from a position on. -/
def splice (elements : List α) (position : Nat) (others : List α) : List α :=
  elements.take position ++ others ++ elements.drop (position + others.length)

/-- Takes `count` steps on an output, numbered from `next` on, up to the first that breaks off. -/
def loop (step : UInt64 → List α → Written α) :
    (count : Nat) → (next : UInt64) → List α → Written α
  | 0, _, output => .whole output
  | count + 1, next, output =>
    let written := step next output
    if written.complete then loop step count (next + 1) written.values else written

end Kernel

end Inference
