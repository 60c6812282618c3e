import Inference.Binding.Slot

set_option autoImplicit false
set_option relaxedAutoImplicit false

/-!
# Events

What happens to the nodes of a network, in the order in which it happens: implementations are
tried, nodes are bound, executed and released. A journal is a list of events, oldest first.

## Main definitions

* `Event` — one event.
* `Event.notes` — what the routines told their host.
-/

namespace Inference

/-- Something that happens to a node. -/
inductive Event (σ : Type) where
  /-- The override at a position was asked whether it takes the node. -/
  | tried (function position : Nat)
  /-- The node was bound to an implementation. -/
  | bound (function : Nat) (source : Source) (binding : Binding σ)
  /-- The execute routine of the node ran and left a private state. -/
  | executed (function : Nat) (state : Option σ)
  /-- The release routine of the node ran, on the state that the last call had left. -/
  | released (function : Nat) (release : Release σ) (state : Option σ)
  /-- A routine or an override told its host something. -/
  | note (text : String)

/-- What the routines told their host. -/
def Event.notes {σ : Type} (journal : List (Event σ)) : List String :=
  journal.filterMap fun event =>
    match event with
    | .note text => some text
    | _ => none

end Inference
