import Inference.Shape
import Inference.Text.Report

set_option autoImplicit false
set_option relaxedAutoImplicit false

/-!
# Variables

A variable is one tensor of a network: its element type and shape, the place its descriptor names
for its data, and the part it plays.

## Main definitions

* `Storage` — a runtime buffer, or a block of the descriptor that holds initial data.
* `Role` — input, output, parameter or intermediate.
* `Variable` — an entry of the variable table.
-/

namespace Inference

/-- Where the data of a variable lives. -/
inductive Storage where
  /-- The runtime buffer with this index in the buffer table. -/
  | buffer (index : Nat)
  /-- The descriptor block that holds the initial data. -/
  | parameter (block : Nat)
deriving DecidableEq

/-- What a network does with a variable. -/
inductive Role where
  /-- Filled by the host before a pass. -/
  | input
  /-- Read by the host after a pass. -/
  | output
  /-- Constant data embedded in the descriptor. -/
  | parameter
  /-- Written and read inside the network. -/
  | intermediate
deriving DecidableEq

/-- An entry of the variable table. -/
structure Variable where
  /-- Position in the variable table. -/
  index : Nat
  /-- The number that the encoder gave to the variable. -/
  id : UInt32
  shape : Shape
  elementType : ElementType
  /-- Binary point of the fixed-point encodings. -/
  fixedPoint : Nat
  storage : Storage
  role : Role
deriving DecidableEq

/-- The word that tables use for a role. -/
def Role.label : Role → String
  | .input => "input"
  | .output => "output"
  | .parameter => "parameter"
  | .intermediate => "intermediate"

/-- The words that tables use for a place. -/
def Storage.label : Storage → String
  | .buffer index => s!"buffer {index}"
  | .parameter block => s!"block {block}"

/-- A place in structured output. -/
def Storage.report : Storage → Report
  | .buffer index => .record [("buffer", .count index)]
  | .parameter block => .record [("parameter", .count block)]

/-- A shape in structured output. -/
def Shape.report (shape : Shape) : Report :=
  .record [("dims", .counts shape.dims)]

namespace Variable

/-- Number of elements. -/
def elementCount (v : Variable) : Nat :=
  v.shape.elementCount

/-- Bytes that the elements take. -/
def byteSize (v : Variable) : Nat :=
  v.shape.byteSize v.elementType

/-- Whether the descriptor holds the data. -/
def isParameter (v : Variable) : Bool :=
  match v.storage with
  | .parameter _ => true
  | .buffer _ => false

/-- One line about a variable. -/
def summary (v : Variable) : String :=
  s!"[{v.index}] id={v.id} {v.role.label} {v.elementType.label} {v.shape.text} " ++
    s!"({v.byteSize} bytes, {v.storage.label})"

/-- A variable in structured output. -/
def report (v : Variable) : Report :=
  .record
    [("index", .count v.index), ("id", .count v.id.toNat), ("shape", v.shape.report),
     ("dtype", .text v.elementType.name), ("fixed_point_position", .count v.fixedPoint),
     ("storage", v.storage.report), ("role", .text v.role.label)]

end Variable

end Inference
