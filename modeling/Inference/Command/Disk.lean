import Inference.Command.Path
import Inference.Toml.Standard

set_option autoImplicit false
set_option relaxedAutoImplicit false

/-!
# A disk in memory

A tree of directories and files, and what was printed so far. Commands run on it like on the
machine, so their effects can be looked at as values. Its clock stands still.

## Main definitions

* `Disk`, `Disk.entry?` — the tree, and what stands at a place.
* `Disk.locate` — the place that the steps of a path lead to.
* `Disk.read`, `Disk.map`, `Disk.write`, `Disk.makeDirectory` — file operations.
* `World`, `World.host` — disk and console as a host.
-/

namespace Inference

/-- A place in the tree: the names on the way down to it from the top. -/
abbrev Place := List String

namespace Place

/-- The directory in which the program starts. No path can spell its last name, so that it is not
entered from above. -/
def home : Place := ["tmp", "/"]

/-- The place that a step leads to from a directory. One dot stays and two dots lead up. -/
def move (place : Place) (step : String) : Place :=
  if step = "." then place else if step = ".." then place.dropLast else place ++ [step]

end Place

/-- What can stand at a place. -/
inductive DiskEntry where
  | file (contents : Bytes)
  | directory
  /-- A device that is always empty and forgets what is written to it. -/
  | sink
deriving DecidableEq

/-- What stands where, besides the directories on the way to the one in which the program
starts. -/
structure Disk where
  entries : List (Place × DiskEntry) := [(["dev"], .directory), (["dev", "null"], .sink)]
deriving DecidableEq

/-- A path taken apart: where it starts, its steps, and whether a slash at its end insists on a
directory. -/
structure Route where
  start : Place
  steps : List String
  directory : Bool

namespace Route

/-- The longest path, in bytes. -/
def longestPath : Nat := 4095

/-- The longest name in a directory, in bytes. -/
def longestName : Nat := 255

/-- A path taken apart. -/
def ofPath (path : String) : Except FileFault Route :=
  if path.isEmpty then .error .missing
  else if longestPath < path.utf8ByteSize then .error .nameTooLong
  else .ok
    { start := if Path.isAbsolute path then [] else Place.home
      steps := (Path.pieces path).filter (· ≠ "")
      directory := (Path.pieces path).getLast? = some "" }

end Route

namespace Disk

/-! ## Places -/

/-- What stands at a place. -/
def entry? (disk : Disk) (place : Place) : Option DiskEntry :=
  if place.isPrefixOf Place.home then some .directory
  else (disk.entries.find? fun (other, _) => other = place).map Prod.snd

/-- The disk with an entry at a place, whatever stood there. -/
def set (disk : Disk) (place : Place) (entry : DiskEntry) : Disk :=
  ⟨(place, entry) :: disk.entries.filter fun (other, _) => other ≠ place⟩

/-- Takes steps from a place. Every step starts in a directory; where the last one ends nothing
need stand. -/
def locate (disk : Disk) (place : Place) : List String → Except FileFault Place
  | [] => .ok place
  | step :: rest =>
    match disk.entry? place with
    | none => .error .missing
    | some .directory =>
      if Route.longestName < step.utf8ByteSize then .error .nameTooLong
      else disk.locate (place.move step) rest
    | some _ => .error .notDirectory

/-! ## File operations -/

/-- What stands at the end of a path. -/
def follow (disk : Disk) (path : String) : Except FileFault DiskEntry := do
  let route ← Route.ofPath path
  let place ← disk.locate route.start route.steps
  match disk.entry? place with
  | none => .error .missing
  | some .directory => .ok .directory
  | some entry => if route.directory then .error .notDirectory else .ok entry

/-- Whether a directory stands at the end of a path. -/
def isDirectory (disk : Disk) (path : String) : Bool :=
  match disk.follow path with
  | .ok .directory => true
  | _ => false

/-- The contents of the file at the end of a path. -/
def read (disk : Disk) (path : String) : Except FileFault Bytes :=
  match disk.follow path with
  | .error fault => .error fault
  | .ok .directory => .error .isDirectory
  | .ok .sink => .ok []
  | .ok (.file contents) => .ok contents

/-- The contents of a file that stays where it is. All else can be opened and not mapped. -/
def map (disk : Disk) (path : String) : Except MapFault Bytes :=
  match disk.follow path with
  | .error fault => .error (.unopened fault)
  | .ok (.file contents) => .ok contents
  | .ok _ => .error (.unmapped .noDevice)

/-- The disk after a file was created or its contents were replaced. -/
def write (disk : Disk) (path : String) (contents : Bytes) : Except FileFault Disk := do
  let route ← Route.ofPath path
  let place ← disk.locate route.start route.steps
  if route.directory then .error .isDirectory
  else
    match disk.entry? place with
    | some .directory => .error .isDirectory
    | some .sink => .ok disk
    | _ => .ok (disk.set place (.file contents))

/-- The disk after one directory was created. -/
def makeDirectory (disk : Disk) (path : String) : Except FileFault Disk := do
  let route ← Route.ofPath path
  let place ← disk.locate route.start route.steps
  match disk.entry? place with
  | some _ => .error .alreadyThere
  | none => .ok (disk.set place .directory)

/-! ## Files where the program starts -/

/-- The paths and contents of all files below the directory in which the program starts. -/
def files (disk : Disk) : List (String × Bytes) :=
  disk.entries.filterMap fun (place, entry) =>
    match entry, Place.home.isPrefixOf place with
    | .file contents, true =>
      some (Path.ofNames false (place.drop Place.home.length), contents)
    | _, _ => none

/-- The disk with one more file, and the directories that its path passes through. -/
def addFile (disk : Disk) (path : String) (contents : Bytes) : Disk :=
  let passed := (Path.above path).foldl
    (fun disk above => disk.set (Place.home ++ Path.names above) .directory) disk
  passed.set (Place.home ++ Path.names path) (.file contents)

/-- The disk that holds the given files. -/
def ofFiles (files : List (String × Bytes)) : Disk :=
  files.foldl (fun disk (path, contents) => disk.addFile path contents) {}

end Disk

/-- A disk and a console. -/
structure World where
  disk : Disk
  /-- What was printed so far. -/
  printed : String := ""
deriving DecidableEq

namespace World

/-- Replaces the disk by the result of an operation, if it succeeds. -/
def update (operation : Disk → Except FileFault Disk) : StateM World (Except FileFault Unit) := do
  let world ← get
  match operation world.disk with
  | .error fault => return .error fault
  | .ok disk =>
    set { world with disk := disk }
    return .ok ()

/-- The host whose files are on the disk of a world. -/
def host : Host (StateM World) where
  read path := return (← get).disk.read path
  map path := return (← get).disk.map path
  makeDirectories := Path.createAll (fun path => update fun disk => disk.makeDirectory path)
    fun path => return (← get).disk.isDirectory path
  write path contents := update fun disk => disk.write path contents
  toml := Toml.standard
  now := return 0
  print text := modify fun world => { world with printed := world.printed ++ text }

end World

end Inference
