import Inference.Builtin.Installers
import Inference.Command.Fault
import Inference.Descriptor.Decode
import Inference.Text.Column
import Inference.Text.Decimal

set_option autoImplicit false
set_option relaxedAutoImplicit false

/-!
# Inspecting a descriptor

The tables of a descriptor, for people or as JSON.

## Main definitions

* `Network.inspection` — the tables as columns of text.
* `Command.inspect` — the command.
-/

namespace Inference

/-- A count of bytes in units of 1024 bytes, with one place. -/
def kilobytesText (bytes : Nat) : String :=
  fixedDouble 1 (bytes.toUInt64.toFloat / 1024.0) ++ " KB"

namespace Network

/-- The title of an inspection. -/
def inspectionTitle : List String :=
  ["╔══════════════════════════════════════════════════════╗",
   "║              nnb-rt · Descriptor Inspector           ║",
   "╚══════════════════════════════════════════════════════╝", ""]

/-- The figures of a network. -/
def inspectionFigures (path : String) (network : Network) : List String :=
  [s!"  File:       {path}",
   s!"  Version:    {network.version} (api level {network.apiLevel})",
   s!"  Blocks:     {network.blocks.count}",
   s!"  Variables:  {network.variableTable.length}",
   s!"  Functions:  {network.functions.length}",
   s!"  Parameters: {kilobytesText network.parameterBytes}, " ++
     s!"all variables {kilobytesText network.variableBytes}", ""]

/-- A line for each buffer. -/
def inspectionBuffers (network : Network) : List String :=
  "  Buffers:" ::
    (network.buffers.mapIdx fun i size => s!"   [{i}] {size} elements") ++ [""]

/-- A rule below the head of a table. -/
def tableRule (width : Nat) : String :=
  "  " ++ String.ofList (List.replicate width '-')

/-- A row of the table of variables. -/
def variableRow (index id role type shape bytes storage : String) : String :=
  "  " ++ " ".intercalate
    [Text.padRight 4 index, Text.padRight 6 id, Text.padRight 13 role, Text.padRight 8 type,
     Text.padRight 18 shape, Text.padLeft 10 bytes, Text.padRight 10 storage]

/-- The table of variables. -/
def inspectionVariables (network : Network) : List String :=
  let rows := network.variableTable.map fun v =>
    variableRow (toString v.index) (toString v.id) v.role.label v.elementType.label v.shape.text
      (toString v.byteSize) v.storage.label
  variableRow "Idx" "Id" "Role" "Type" "Shape" "Bytes" "Storage" :: tableRule 76 :: rows ++ [""]

/-- A row of the table of functions. -/
def functionRow (index type variant inputs outputs builtin : String) : String :=
  "  " ++ " ".intercalate
    [Text.padRight 4 index, Text.padRight 20 type, Text.padLeft 7 variant,
     Text.padRight 14 inputs, Text.padRight 10 outputs, Text.padRight 8 builtin]

/-- The table of functions, with whether there are built-in implementations for them. -/
def inspectionFunctions (network : Network) : List String :=
  let registry : Registry Empty := .defaults
  let rows := network.functions.map fun f =>
    functionRow (toString f.index) f.op.text (toString f.variant) (indexListText f.inputs)
      (indexListText f.outputs) (if registry.supports f.op then "yes" else "no")
  functionRow "Idx" "Type" "Variant" "Inputs" "Outputs" "Built-in" :: tableRule 68 :: rows ++ [""]

/-- The tables of a network as columns of text. -/
def inspection (path : String) (network : Network) : String :=
  let lines := inspectionTitle ++ network.inspectionFigures path ++ network.inspectionBuffers ++
    network.inspectionVariables ++ network.inspectionFunctions
  String.join (lines.map (· ++ "\n"))

end Network

namespace Command

/-- Maps a descriptor file. -/
def mapDescriptor {m : Type → Type} [Monad m] (host : Host m) (path : String) :
    m (Except CommandFault Bytes) := do
  return (← host.map path).mapError (.unmapped path)

/-- Prints the tables of a descriptor file. -/
def inspect {m : Type → Type} [Monad m] (host : Host m) (path : String) (json : Bool) :
    m (Except CommandFault Unit) := do
  match ← mapDescriptor host path with
  | .error fault => return .error fault
  | .ok bytes =>
    match Network.decode bytes with
    | .error fault => return .error (.undecoded path fault)
    | .ok network =>
      if json then host.print (network.report.render ++ "\n")
      else host.print (network.inspection path)
      return .ok ()

end Command

end Inference
