import Inference.Bytes
import Inference.Toml.Library

set_option autoImplicit false
set_option relaxedAutoImplicit false

/-!
# Hosts

The commands read and write files, print, and read a clock. What they need is a record of actions
in an arbitrary monad, so that the same command can run on the machine and on a disk in memory.

## Main definitions

* `FileFault` — why a file operation fails.
* `Host` — the actions.
-/

namespace Inference

/-- Why a file operation fails. -/
inductive FileFault where
  | missing
  | alreadyThere
  | noDevice
  | notDirectory
  | isDirectory
  | nameTooLong
  /-- Any other reason, in the words of the system. -/
  | other (reason : String)
deriving DecidableEq

/-- The system's words and number for a file fault. -/
def FileFault.message : FileFault → String
  | .missing => "No such file or directory (os error 2)"
  | .alreadyThere => "File exists (os error 17)"
  | .noDevice => "No such device (os error 19)"
  | .notDirectory => "Not a directory (os error 20)"
  | .isDirectory => "Is a directory (os error 21)"
  | .nameTooLong => "File name too long (os error 36)"
  | .other reason => reason

/-- Why a file cannot be mapped. -/
inductive MapFault where
  /-- It cannot be opened. -/
  | unopened (fault : FileFault)
  /-- It was opened and cannot be mapped. -/
  | unmapped (fault : FileFault)
deriving DecidableEq

/-- What a command needs from outside. -/
structure Host (m : Type → Type) where
  /-- The contents of a file. -/
  read : String → m (Except FileFault Bytes)
  /-- The contents of a file that stays where it is. -/
  map : String → m (Except MapFault Bytes)
  /-- Creates a directory and all directories above it, as far as they are missing. -/
  makeDirectories : String → m (Except FileFault Unit)
  /-- Creates a file, or replaces its contents. -/
  write : String → Bytes → m (Except FileFault Unit)
  /-- The library that reads settings. -/
  toml : Toml.Library
  /-- A clock, in nanoseconds. -/
  now : m Nat
  /-- Prints a text. -/
  print : String → m Unit

end Inference
