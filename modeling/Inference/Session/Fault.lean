import Inference.Dispatch
import Inference.Engine
import Inference.Memory.Arena
import Inference.Settings

set_option autoImplicit false
set_option relaxedAutoImplicit false

/-!
# Session faults

Why an operation on a session is refused or fails.

## Main definitions

* `Stage`, `Operation` — where a session stands, and what was asked of it.
* `SessionFault` — the faults.
* `SessionFault.message`, `SessionFault.status`, `SessionFault.cause?` — their wording, their
  status, and the fault they were caused by.
-/

namespace Inference

/-- Where a session stands in its life. -/
inductive Stage where
  /-- Overrides can be registered; no network is bound. -/
  | configuring
  /-- A network is bound. -/
  | ready
  /-- Everything was released. -/
  | freed
deriving DecidableEq

/-- The word for a stage. -/
def Stage.label : Stage → String
  | .configuring => "configuring"
  | .ready => "ready"
  | .freed => "freed"

/-- The name of a stage in diagnostics. -/
def Stage.diagnostic : Stage → String
  | .configuring => "Configuring"
  | .ready => "Ready"
  | .freed => "Freed"

/-- What is asked of a session. -/
inductive Operation where
  | register
  | load
  | forward
  | free
  /-- Facts about the inputs or the outputs. -/
  | query (side : Side)
  /-- The contents of the inputs or the outputs. -/
  | access (side : Side)
  | queryFunctions
deriving DecidableEq

/-- The words for an operation. -/
def Operation.label : Operation → String
  | .register => "register an override"
  | .load => "initialize"
  | .forward => "forward"
  | .free => "free"
  | .query side => s!"query {side.label}s"
  | .access side => s!"access {side.label}s"
  | .queryFunctions => "query functions"

/-- The lists of a session that are indexed from outside. -/
inductive Listing where
  | arguments (side : Side)
  | functions
  | regions
deriving DecidableEq

/-- The word for an entry of a list. -/
def Listing.label : Listing → String
  | .arguments side => side.label
  | .functions => "function"
  | .regions => "buffer"

/-- Why an operation on a session is refused or fails. -/
inductive SessionFault where
  /-- The operation is not allowed at this stage. -/
  | invalidState (operation : Operation) (stage : Stage)
  /-- The descriptor is refused, or a built-in implementation refuses one of its nodes. -/
  | malformed (fault : DescriptorFault)
  /-- Nothing binds a node. -/
  | unsupported (op : Operator) (variant : UInt16) (function : Nat) (reason : UnsupportedReason)
  /-- A pass stopped. -/
  | failed (failure : Failure)
  /-- The store cannot be laid out. -/
  | memory (fault : ArenaFault)
  | settings (fault : SettingsFault)
  /-- A list has no entry with this index. -/
  | indexOutOfRange (listing : Listing) (index count : Nat)
  /-- The elements of a variable are no float values. -/
  | typeMismatch (index : Nat) (type : ElementType)
deriving DecidableEq

namespace SessionFault

/-- The fault of a node that cannot be bound. -/
def ofBinding (node : Node) : BindingFault → SessionFault
  | .unsupported reason => .unsupported node.op node.variant node.index reason
  | .refused fault => .malformed fault

/-- The wording of a session fault. -/
def message : SessionFault → String
  | invalidState operation stage =>
    s!"cannot {operation.label} while the context is {stage.label}"
  | malformed fault => s!"malformed descriptor: {fault.message}"
  | unsupported op variant function reason =>
    s!"unsupported operator {op.text} (variant {variant}) at function {function}: " ++
      reason.message
  | failed failure =>
    s!"function {failure.function} ({failure.op.text}) failed: {failure.fault.message}"
  | memory fault => s!"memory error: {fault.message}"
  | settings fault => s!"configuration error: {fault.message}"
  | indexOutOfRange listing index count =>
    s!"{listing.label} index {index} out of range (count: {count})"
  | typeMismatch index type =>
    s!"variable {index} holds {type.label} elements, cannot view as f32"

/-- The status that a session fault stands for. -/
def status : SessionFault → Status
  | invalidState .. => .invalidState
  | malformed _ => .malformedDescriptor
  | unsupported .. => .unsupportedOperator
  | failed _ => .operatorExecutionFailure
  | memory _ => .outOfMemory
  | settings _ => .invalidConfig
  | indexOutOfRange .. => .invalidArgument
  | typeMismatch .. => .invalidArgument

/-- The wording of the fault that a session fault was caused by, if it wraps one. -/
def cause? : SessionFault → Option String
  | malformed fault => some fault.message
  | failed failure => some failure.fault.message
  | memory fault => some fault.message
  | _ => none

end SessionFault

/-- The status of a result. -/
def Status.ofResult {α : Type} : Except SessionFault α → Status
  | .ok _ => .noError
  | .error fault => fault.status

end Inference
