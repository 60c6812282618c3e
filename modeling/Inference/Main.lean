import Inference.Command.Path
import Inference.Command.Program
import Inference.Toml.Standard

set_option autoImplicit false
set_option relaxedAutoImplicit false

/-!
# Entry point

The machine as the host of the commands: its files, its console and its clock.
-/

namespace Inference

/-- The reason why a file operation of the machine failed. -/
def fileFaultOf : IO.Error → FileFault
  | .noFileOrDirectory _ _ _ => .missing
  | .alreadyExists _ _ _ => .alreadyThere
  | .inappropriateType _ code reason =>
    if code = 21 then .isDirectory else if code = 20 then .notDirectory else .other reason
  | .invalidArgument _ code reason => if code = 36 then .nameTooLong else .other reason
  | fault => .other (toString fault)

/-- An action of the machine with its failure as a file fault. -/
def guarded {α : Type} (action : IO α) : IO (Except FileFault α) := do
  match ← action.toBaseIO with
  | .ok value => return .ok value
  | .error fault => return .error (fileFaultOf fault)

/-- The contents of a file of the machine. -/
def readWhole (path : String) : IO (Except FileFault Bytes) :=
  guarded do
    let contents ← IO.FS.readBinFile path
    return contents.toList

/-- Whether a directory of the machine can be opened under a path. -/
def opensDirectory (path : String) : IO Bool := do
  match ← readWhole path with
  | .error .isDirectory => return true
  | _ => return false

/-- The machine as a host. -/
def machine : Host IO where
  read := readWhole
  map path := do
    match ← readWhole path with
    | .ok contents => return .ok contents
    | .error .isDirectory => return .error (.unmapped .noDevice)
    | .error fault => return .error (.unopened fault)
  makeDirectories := Path.createAll (fun path => guarded (IO.FS.createDir path)) opensDirectory
  write path contents := guarded (IO.FS.writeBinFile path ⟨contents.toArray⟩)
  toml := Toml.standard
  now := IO.monoNanosNow
  print text := do
    let output ← IO.getStdout
    output.putStr text

end Inference

/-- Carries out what the arguments ask for. -/
def main (arguments : List String) : IO UInt32 := do
  let ending ← Inference.Command.program Inference.machine arguments
  IO.eprint ending.complaint
  return ending.code
