import Inference.Command.Host

set_option autoImplicit false
set_option relaxedAutoImplicit false

/-!
# Paths

A path is a text whose pieces are divided by slashes. Above it are the directories that it passes
through, and a directory is created together with those of them that are missing.

## Main definitions

* `Path.pieces`, `Path.names` — a path taken apart.
* `Path.above` — the directories that a path passes through.
* `Path.createAll` — creation of a directory and of those above it.
-/

namespace Inference

namespace Path

/-! ## Pieces -/

/-- The pieces of a path between its slashes. -/
def piecesOf : List Char → List (List Char)
  | [] => [[]]
  | '/' :: rest => [] :: piecesOf rest
  | c :: rest =>
    match piecesOf rest with
    | piece :: others => (c :: piece) :: others
    | [] => [[c]]

/-- The pieces of a path between its slashes, of which there is always one more than slashes. -/
def pieces (path : String) : List String :=
  (piecesOf path.toList).map String.ofList

/-- The pieces of a path that lead elsewhere, two dots among them. Empty pieces and single dots do
not. -/
def names (path : String) : List String :=
  (pieces path).filter fun piece => piece ≠ "" ∧ piece ≠ "."

/-- Whether a path starts at the top of the tree, and not where the program does. -/
def isAbsolute (path : String) : Bool :=
  path.toList.head? = some '/'

/-- The path along some names. -/
def ofNames (absolute : Bool) (names : List String) : String :=
  (if absolute then "/" else "") ++ "/".intercalate names

/-- The paths of the directories that a path passes through, the last one first. -/
def above (path : String) : List String :=
  let names := names path
  (List.range' 1 (names.length - 1)).reverse.map fun count =>
    ofNames (isAbsolute path) (names.take count)

/-! ## Creation of directories -/

section

variable {m : Type → Type} [Monad m] (create : String → m (Except FileFault Unit))
  (isDirectory : String → m Bool)

/-- Creates one directory, unless it is there already. -/
def createOne (path : String) : m (Except FileFault Unit) := do
  match ← create path with
  | .ok () => return .ok ()
  | .error fault => return if ← isDirectory path then .ok () else .error fault

/-- Creates the first of some directories, each of which stands in the next one. A directory is
tried first and once more after those above it, if it cannot be reached before. -/
def createFirst : List String → m (Except FileFault Unit)
  | [] => return .ok ()
  | path :: above => do
    match ← createOne create isDirectory path with
    | .error .missing =>
      match ← createFirst above with
      | .ok () => createOne create isDirectory path
      | .error fault => return .error fault
    | result => return result

/-- Creates a directory and all directories above it, as far as they are missing. -/
def createAll (path : String) : m (Except FileFault Unit) :=
  createFirst create isDirectory (path :: above path)

end

end Path

end Inference
