import Inference.Bytes
import Inference.Operator
import Inference.Text.Report

set_option autoImplicit false
set_option relaxedAutoImplicit false

/-!
# Function entries

A row of the function table: an operator applied to variables. Rows are executed in table order.

## Main definitions

* `FunctionEntry` — operator, variant, argument variables by index, and parameter bytes.
-/

namespace Inference

/-- A row of the function table. -/
structure FunctionEntry where
  /-- Position in the function table, which is the order of execution. -/
  index : Nat
  op : Operator
  /-- Which implementation of the operator the encoder asks for. -/
  variant : UInt16
  /-- Input variables by index, in argument order. -/
  inputs : List Nat
  /-- Output variables by index, in argument order. -/
  outputs : List Nat
  /-- The operator's own bytes. -/
  parameters : Bytes
deriving DecidableEq

/-- A list of indices in brackets. -/
def indexListText (indices : List Nat) : String :=
  "[" ++ ", ".intercalate (indices.map toString) ++ "]"

/-- An operator in structured output. -/
def Operator.report (op : Operator) : Report :=
  match op.name? with
  | some name => .text name
  | none => .record [("Other", .count op.code.toNat)]

namespace FunctionEntry

/-- One line about a function. -/
def summary (f : FunctionEntry) : String :=
  s!"[{f.index}] {f.op.text} (impl {f.variant}) inputs {indexListText f.inputs} -> " ++
    s!"outputs {indexListText f.outputs}, {f.parameters.length} param bytes"

/-- A function in structured output; its parameter bytes are left out. -/
def report (f : FunctionEntry) : Report :=
  .record
    [("index", .count f.index), ("function_type", f.op.report),
     ("variant", .count f.variant.toNat), ("inputs", .counts f.inputs),
     ("outputs", .counts f.outputs)]

end FunctionEntry

end Inference
