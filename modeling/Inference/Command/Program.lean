import Inference.Command.Arguments

set_option autoImplicit false
set_option relaxedAutoImplicit false

/-!
# The program

Carries out what an argument list asks for.

## Main definitions

* `Ending` — exit code and complaint.
* `Command.program` — from arguments to the ending.
-/

namespace Inference

/-- How the program ends. -/
structure Ending where
  code : UInt32
  /-- What is written to standard error. -/
  complaint : String
deriving DecidableEq

namespace Command

/-- The ending for the result of a command. -/
def endingOf : Except CommandFault Unit → Ending
  | .ok () => ⟨0, ""⟩
  | .error fault => ⟨1, fault.text⟩

/-- Carries out what an argument list asks for. -/
def program {m : Type → Type} [Monad m] (host : Host m) (arguments : List String) :
    m Ending := do
  match Request.ofArguments arguments with
  | .error fault => return ⟨2, s!"error: {fault.message}\n"⟩
  | .ok (.inspect model json) => return endingOf (← inspect host model json)
  | .ok (.run arguments) => return endingOf (← run host arguments).result

end Command

end Inference
