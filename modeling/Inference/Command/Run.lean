import Inference.Builtin.Installers
import Inference.Command.Inspect
import Inference.Session.Access

set_option autoImplicit false
set_option relaxedAutoImplicit false

/-!
# Running a descriptor

Binds a descriptor file with the built-in implementations, fills the inputs from files, makes one
or more passes, and shows the outputs or writes them to files. The session is freed in every case.

## Main definitions

* `RunArguments` — what to run.
* `Command.drive` — everything between the start and the end of the session.
* `Command.run` — the command.
-/

namespace Inference

/-- What to run. -/
structure RunArguments where
  /-- The descriptor file. -/
  model : String
  /-- One file for each input, in input order. -/
  inputs : List String := []
  /-- Where each output is written; outputs are shown if there is no directory. -/
  outputDirectory : Option String := none
  /-- The file with the settings. -/
  settings : Option String := none
  repetitions : Nat := 1
  /-- Whether timings are printed as JSON, and nothing else. -/
  json : Bool := false
deriving DecidableEq

namespace Command

/-! ## Texts -/

/-- The first values of an output, at most eight. -/
def preview (values : List Single) : String :=
  let head := ", ".intercalate ((values.take 8).map (Single.fixed 4))
  "[" ++ head ++ (if 8 < values.length then ", ..." else "") ++ "]"

/-- How long all passes took, and each of them on average. -/
def passesText (passes nanos : Nat) : String :=
  let each := fixedDouble 3 (milliseconds nanos / passes.toUInt64.toFloat)
  s!"  {passes} forward passes in {millisecondsText nanos} ({each}ms each)"

/-- What each function is bound to, and the timings if there are any. -/
def bindingLines (bound : Bound Empty) (latest : Option Metrics) : List String :=
  (bound.functions.mapIdx fun i f => s!"   function [{i}] bound to {f.source.label}") ++
    (latest.toList.map fun metrics => "   " ++ metrics.summary)

/-- The file in a directory that an output is written to. -/
def outputPath (directory : String) (index : Nat) : String :=
  let separator := if directory.isEmpty || directory.toList.getLast? = some '/' then "" else "/"
  directory ++ separator ++ s!"output_{index}.bin"

/-! ## Steps -/

variable {m : Type → Type} [Monad m]

/-- Steps that use a session, up to the first fault. The session outlives the fault. -/
abbrev Drive (m : Type → Type) := ExceptT CommandFault (StateT (Session Empty) m)

/-- An action of the host. -/
def act {α : Type} (action : m α) : Drive m α :=
  ExceptT.lift (StateT.lift action)

/-- An action of the host that can fail. -/
def attempt {ε α : Type} (fault : ε → CommandFault) (action : m (Except ε α)) : Drive m α := do
  ofExcept ((← act action).mapError fault)

/-- A question to the session. -/
def inquire {α : Type} (question : Session Empty → Except SessionFault α) : Drive m α := do
  ofExcept ((question (← get)).mapError .session)

/-- A change of the session. -/
def change (update : Session Empty → Except SessionFault (Session Empty)) : Drive m Unit := do
  set (← inquire update)

/-- Loads a descriptor. -/
def load (path : String) (descriptor : Bytes) : Drive m Unit := do
  let reply := (← get).load 0 descriptor
  set reply.session
  ofExcept (reply.result.mapError (.notLoaded path))

/-- Fills inputs from files, the first of which belongs to the input `index`. -/
def fillInputs (host : Host m) (index : Nat) : List String → Drive m Unit
  | [] => pure ()
  | path :: rest => do
    let data ← attempt (.unread path) (host.read path)
    let expected ← inquire fun session => session.byteSize .input index
    if data.length ≠ expected then throw (.inputSize index path data.length expected)
    change fun session => session.write .input index 0 data
    fillInputs host (index + 1) rest

/-- Makes passes, up to the first that fails. -/
def passes (host : Host m) : Nat → Drive m Unit
  | 0 => pure ()
  | count + 1 => do
    let reply ← act ((← get).forward host.now)
    set reply.session
    ofExcept (reply.result.mapError .session)
    passes host count

/-- Prints what the passes tell. -/
def report (host : Host m) (json : Bool) (count nanos : Nat) : Drive m Unit := do
  let bound ← inquire fun session => session.bound .queryFunctions
  let latest := (← get).lastMetrics?
  if json then
    match latest with
    | some metrics => act (host.print (metrics.report.render ++ "\n"))
    | none => pure ()
  else
    act (host.print (String.join
      ((passesText count nanos :: bindingLines bound latest).map (· ++ "\n"))))

/-- Writes an output to its file in a directory. -/
def writeOutput (host : Host m) (json : Bool) (directory : String) (index : Nat) :
    Drive m Unit := do
  let v ← inquire fun session => session.argument .output index
  attempt (.notCreated directory) (host.makeDirectories directory)
  let path := outputPath directory index
  let bytes ← inquire fun session => session.read .output index
  attempt (.unwritten path) (host.write path bytes)
  if json then pure ()
  else
    act (host.print
      s!"   output {index} {v.elementType.label} {v.shape.text} → {path}\n")

/-- Shows an output. -/
def showOutput (host : Host m) (index : Nat) : Drive m Unit := do
  let v ← inquire fun session => session.argument .output index
  let line := match (← get).readSingles .output index with
    | .ok values => s!"   output {index} {v.shape.text}: {preview values}\n"
    | .error _ =>
      s!"   output {index} {v.elementType.label} {v.shape.text}: {v.byteSize} bytes\n"
  act (host.print line)

/-- Writes or shows all outputs, in order. With JSON nothing is shown. -/
def deliver (host : Host m) (arguments : RunArguments) : Drive m Unit := do
  let count ← inquire fun session => session.count .output
  for index in List.range count do
    match arguments.outputDirectory with
    | some directory => writeOutput host arguments.json directory index
    | none => if arguments.json then pure () else showOutput host index

/-! ## The command -/

/-- Everything between the start and the end of the session. -/
def drive (host : Host m) (arguments : RunArguments) (descriptor : Bytes) : Drive m Unit := do
  load arguments.model descriptor
  let inputs ← inquire fun session => session.count .input
  if inputs < arguments.inputs.length then
    throw (.tooManyInputs arguments.inputs.length inputs)
  fillInputs host 0 arguments.inputs
  let count := max 1 arguments.repetitions
  let start ← act host.now
  passes host count
  let stop ← act host.now
  report host arguments.json count (stop - start)
  deliver host arguments

/-- The settings in a file. -/
def readSettings (host : Host m) (path : String) : m (Except SettingsFault Settings) := do
  match ← host.read path with
  | .error fault => return .error (.unreadable path fault.message)
  | .ok bytes =>
    match String.fromUTF8? ⟨bytes.toArray⟩ with
    | some text => return Settings.ofToml host.toml text
    | none => return .error (.unreadable path "stream did not contain valid UTF-8")

/-- The settings of a run. Timings are always taken if they are printed as JSON. -/
def settingsOf (host : Host m) (arguments : RunArguments) :
    m (Except CommandFault Settings) := do
  let settings ← match arguments.settings with
    | some path => readSettings host path
    | none => pure (.ok {})
  match settings with
  | .ok settings => return .ok { settings with profiling := settings.profiling || arguments.json }
  | .error fault => return .error (.session (.settings fault))

/-- How a run ends: its result and, if there was a session, what became of it. -/
structure RunEnd where
  result : Except CommandFault Unit
  session : Option (Session Empty)

/-- Runs a descriptor file. The session is freed whatever happens. -/
def run (host : Host m) (arguments : RunArguments) : m RunEnd := do
  match ← settingsOf host arguments with
  | .error fault => return ⟨.error fault, none⟩
  | .ok settings =>
    match ← mapDescriptor host arguments.model with
    | .error fault => return ⟨.error fault, none⟩
    | .ok descriptor =>
      let session := Session.new settings .defaults
      let (result, session) ← (drive host arguments descriptor).run.run session
      return ⟨result, some session.free.session⟩

end Command

end Inference
