import Inference.Command.Host
import Inference.Session.Fault

set_option autoImplicit false
set_option relaxedAutoImplicit false

/-!
# Command faults

Why a command fails. A fault is printed with the chain of faults that led to it, the outermost
first.

## Main definitions

* `CommandFault` — the faults.
* `CommandFault.message`, `CommandFault.causes` — the wording, and the wordings of the chain.
* `CommandFault.text` — fault and chain as they are printed.
-/

namespace Inference

/-- Why a command fails. -/
inductive CommandFault where
  /-- The descriptor file cannot be mapped. -/
  | unmapped (path : String) (fault : MapFault)
  /-- The file to inspect is no descriptor. -/
  | undecoded (path : String) (fault : DescriptorFault)
  /-- The session does not take the descriptor. -/
  | notLoaded (path : String) (fault : SessionFault)
  /-- An operation on the session fails, or the settings are faulty. -/
  | session (fault : SessionFault)
  /-- There are more input files than inputs. -/
  | tooManyInputs (given count : Nat)
  | unread (path : String) (fault : FileFault)
  /-- An input file has not the size of the input. -/
  | inputSize (index : Nat) (path : String) (size expected : Nat)
  /-- The output directory cannot be created. -/
  | notCreated (path : String) (fault : FileFault)
  | unwritten (path : String) (fault : FileFault)
deriving DecidableEq

namespace CommandFault

/-- The wording of a command fault, without its causes. -/
def message : CommandFault → String
  | unmapped path (.unopened _) => s!"cannot open '{path}'"
  | unmapped path (.unmapped _) => s!"cannot map '{path}'"
  | undecoded path fault => s!"failed to decode '{path}': {fault.message}"
  | notLoaded path _ => s!"cannot initialize '{path}'"
  | session fault => fault.message
  | tooManyInputs given count => s!"{given} input files given, network has {count} inputs"
  | unread path _ => s!"cannot read '{path}'"
  | inputSize index path size expected =>
    s!"input {index} ('{path}') is {size} bytes, expected {expected}"
  | notCreated path _ => s!"cannot create '{path}'"
  | unwritten path _ => s!"cannot write '{path}'"

/-- The wordings of the faults that led to a command fault, outermost first. -/
def causes : CommandFault → List String
  | unmapped _ (.unopened fault) => [fault.message]
  | unmapped _ (.unmapped fault) => [fault.message]
  | undecoded _ _ => []
  | notLoaded _ fault => fault.message :: fault.cause?.toList
  | session fault => fault.cause?.toList
  | tooManyInputs _ _ => []
  | unread _ fault => [fault.message]
  | inputSize _ _ _ _ => []
  | notCreated _ fault => [fault.message]
  | unwritten _ fault => [fault.message]

/-! ## Printing -/

/-- A cause behind a heading; its further lines are indented as deep as the heading is. -/
def indentCause (heading cause : String) : String :=
  let margin := '\n' :: List.replicate heading.length ' '
  heading ++ String.ofList (cause.toList.flatMap fun c => if c = '\n' then margin else [c])

/-- The heading of a numbered cause. -/
def causeHeading (index : Nat) : String :=
  let digits := toString index
  String.ofList (List.replicate (5 - digits.length) ' ') ++ digits ++ ": "

/-- The lines for a chain of causes. A single cause has no number. -/
def causeLines : List String → List String
  | [] => []
  | [cause] => ["", "Caused by:", indentCause "    " cause]
  | causes => "" :: "Caused by:" :: causes.mapIdx fun i cause => indentCause (causeHeading i) cause

/-- A command fault with its causes, as it is printed. -/
def text (fault : CommandFault) : String :=
  "\n".intercalate (("Error: " ++ fault.message) :: causeLines fault.causes) ++ "\n"

end CommandFault

end Inference
