import Inference.Descriptor.Block
import Inference.Descriptor.FunctionEntry
import Inference.Descriptor.Variable
import Inference.Total

set_option autoImplicit false
set_option relaxedAutoImplicit false

/-!
# Networks

The tables of a descriptor, and the texts and structured reports that show them.

## Main definitions

* `Network` — the tables, with the blocks that hold parameter data.
* `Network.parameterData?` — the initial data of a variable.
* `Network.summary`, `Network.text`, `Network.report` — a network in one line, in full, and as a
  structured value.
-/

namespace Inference

/-- The tables of a descriptor. -/
structure Network where
  version : Nat
  /-- The level that the encoder recorded. -/
  apiLevel : Nat
  /-- Element count of each runtime buffer. -/
  buffers : List Nat
  variableTable : List Variable
  /-- The functions, in order of execution. -/
  functions : List FunctionEntry
  /-- The variables that the host fills, by index. -/
  inputs : List Nat
  /-- The variables that the host reads, by index. -/
  outputs : List Nat
  blocks : BlockTable
deriving DecidableEq

namespace Network

/-- The initial data of a variable that the descriptor holds data for: as many bytes of its block
as the variable has. -/
def parameterData? (network : Network) (v : Variable) : Option Bytes :=
  match v.storage with
  | .buffer _ => none
  | .parameter block =>
    match network.blocks.block? block with
    | none => none
    | some bytes => if v.byteSize ≤ bytes.length then some (bytes.take v.byteSize) else none

/-- Bytes of initial data that the variables take. -/
def parameterBytes (network : Network) : Nat :=
  total ((network.variableTable.filter Variable.isParameter).map Variable.byteSize)

/-- Bytes that all variables take, each on its own. -/
def variableBytes (network : Network) : Nat :=
  total (network.variableTable.map Variable.byteSize)

/-- The variables with the given indices. -/
def select (network : Network) (indices : List Nat) : List Variable :=
  indices.filterMap fun i => network.variableTable[i]?

/-! ## Texts -/

/-- One line about a network. -/
def summary (network : Network) : String :=
  s!"NNB v{network.version} (api {network.apiLevel}): {network.variableTable.length} variables, " ++
    s!"{network.functions.length} functions, {network.buffers.length} buffers, " ++
    s!"{network.inputs.length} inputs, {network.outputs.length} outputs, " ++
    s!"{network.parameterBytes} parameter bytes"

/-- The summary line, and a line for each buffer, variable and function. -/
def text (network : Network) : String :=
  let buffers := network.buffers.zipIdx.map fun (size, i) => s!"  buffer [{i}] {size} elements"
  let rows := network.variableTable.map fun v => "  " ++ v.summary
  let functions := network.functions.map fun f => "  " ++ f.summary
  String.join ((network.summary :: buffers ++ rows ++ functions).map (· ++ "\n"))

/-- The tables as a structured value. -/
def report (network : Network) : Report :=
  .record
    [("version", .count network.version), ("api_level", .count network.apiLevel),
     ("buffers", .counts network.buffers), ("inputs", .counts network.inputs),
     ("outputs", .counts network.outputs),
     ("variables", .list (network.variableTable.map Variable.report)),
     ("functions", .list (network.functions.map FunctionEntry.report)),
     ("parameter_bytes", .count network.parameterBytes)]

end Network

end Inference
