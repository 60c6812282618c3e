set_option autoImplicit false
set_option relaxedAutoImplicit false

/-!
# First fault wins

Tables are read entry by entry, and the first entry that cannot be read decides the answer.

## Main definitions

* `traverseFrom` — reads every entry with its index, up to the first fault.
* `orFault` — a missing value as a fault.
-/

namespace Inference

/-- Applies `f` to every entry and its index, counted from `start`; the first fault is the
answer, and no later entry is looked at. -/
def traverseFrom {ε α β : Type} (f : Nat → α → Except ε β) (start : Nat) :
    List α → Except ε (List β)
  | [] => .ok []
  | x :: rest =>
    match f start x with
    | .error fault => .error fault
    | .ok y =>
      match traverseFrom f (start + 1) rest with
      | .error fault => .error fault
      | .ok ys => .ok (y :: ys)

/-- Applies `f` to every entry and its index, counted from zero. -/
def traverse {ε α β : Type} (f : Nat → α → Except ε β) (entries : List α) :
    Except ε (List β) :=
  traverseFrom f 0 entries

/-- The value of an option, or the given fault where there is none. -/
def orFault {ε α : Type} (value : Option α) (fault : ε) : Except ε α :=
  match value with
  | some x => .ok x
  | none => .error fault

end Inference
