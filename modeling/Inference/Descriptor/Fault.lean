import Inference.Operator
import Inference.Shape

set_option autoImplicit false
set_option relaxedAutoImplicit false

/-!
# Descriptor faults

Why a byte string is no descriptor, or why a node of a descriptor cannot be bound to the
implementation that was chosen for it. Each fault records the figures of the place where it was
found; the wording is in one function.

## Main definitions

* `DescriptorFault` — the faults, with `VariableFault`, `NodeFault` and `ParameterFault` for
  faults inside one entry.
* `DescriptorFault.message` — their wording.
-/

namespace Inference

/-- The sections of a descriptor whose extent is checked against the input. -/
inductive Section where
  | header
  | offsetTable
  | dataRegion
deriving DecidableEq

/-- What a reference inside a descriptor points at. -/
inductive Referent where
  | bufferTable
  | variableTable
  | networkInputs
  | networkOutputs
  | networkInputVariable
  | networkOutputVariable
  | variableEntry
  | variableShape
  | parameterData
  | buffer
  | functionTable
  | functionEntry
  | functionInputs
  | functionOutputs
  | functionInputVariable
  | functionOutputVariable
deriving DecidableEq

/-- What is wrong with the operator parameters of a node. -/
inductive ParameterFault where
  /-- The bytes end before the field at `offset`. -/
  | missingField (field : String) (offset present : Nat)
  /-- A field that counts something is negative. -/
  | negativeField (field : String) (value : Int)
  /-- The bytes end before the scalar operand. -/
  | missingScalar (present : Nat)
deriving DecidableEq

/-- What is wrong with a variable entry. -/
inductive VariableFault where
  | negativeDimension (dim : Int)
  | unknownElementType (code : Nat)
  | shapeOverflow (shape : Shape)
  /-- The variable has more elements than the buffer it is stored in. -/
  | bufferTooSmall (elements buffer capacity : Nat)
deriving DecidableEq

/-- What is wrong with a node, by itself or for the implementation chosen for it. -/
inductive NodeFault where
  /-- A variable is listed twice among the outputs. -/
  | duplicateOutput (index : Nat)
  /-- A variable is an input and an output. -/
  | aliasedOutput (index : Nat)
  /-- The operator takes between `least` and `most` inputs and `outputs` outputs. -/
  | arity (op : Operator) (least most outputs givenInputs givenOutputs : Nat)
  /-- An input has another element count than the output. -/
  | inputSize (op : Operator) (index : Nat) (shape : Shape) (expected : Nat)
  | baseAxis (axis : Nat) (input : Shape)
  | weightShape (weight input : Shape) (axis : Nat)
  | outputSize (output : Shape) (outer inner : Nat)
  | biasSize (bias : Shape) (features : Nat)
  | softmaxAxis (axis : Nat) (shape : Shape)
  /-- An implementation of the host refuses the node in its own words. -/
  | refused (detail : String)
deriving DecidableEq

/-- Why a byte string is no descriptor, or a node of one cannot be bound. -/
inductive DescriptorFault where
  /-- The input ends before a section that it declares. -/
  | truncated (part : Section) (needed actual : Nat)
  | unsupportedVersion (version : Nat)
  /-- A block offset lies outside the data region or before its predecessor. -/
  | badBlockOffset (block offset dataSize : Nat)
  /-- A reference is out of range. -/
  | indexOutOfRange (what : Referent) (index : Int) (count : Nat)
  /-- A block is shorter than what it should hold. -/
  | blockTooShort (block : Nat) (what : Referent) (needed actual : Nat)
  /-- A buffer has a negative element count. -/
  | invalidBuffer (buffer : Nat) (size : Int)
  | invalidVariable (index : Nat) (fault : VariableFault)
  | invalidNode (function : Nat) (fault : NodeFault)
  | invalidParameters (op : Operator) (fault : ParameterFault)
deriving DecidableEq

/-- The format version that descriptors carry. -/
def descriptorVersion : Nat := 2

/-- The name of a section. -/
def Section.label : Section → String
  | .header => "header"
  | .offsetTable => "block offset table"
  | .dataRegion => "data region"

/-- The name of what a reference points at. -/
def Referent.label : Referent → String
  | .bufferTable => "buffer table"
  | .variableTable => "variable table"
  | .networkInputs => "network inputs"
  | .networkOutputs => "network outputs"
  | .networkInputVariable => "network input variable"
  | .networkOutputVariable => "network output variable"
  | .variableEntry => "variable entry"
  | .variableShape => "variable shape"
  | .parameterData => "parameter data"
  | .buffer => "buffer"
  | .functionTable => "function table"
  | .functionEntry => "function entry"
  | .functionInputs => "function inputs"
  | .functionOutputs => "function outputs"
  | .functionInputVariable => "function input variable"
  | .functionOutputVariable => "function output variable"

/-- The wording of a parameter fault. -/
def ParameterFault.message : ParameterFault → String
  | .missingField field offset present =>
    s!"missing '{field}' at byte {offset} ({present} bytes present)"
  | .negativeField field value => s!"'{field}' must be non-negative, got {value}"
  | .missingScalar present => s!"missing scalar value ({present} bytes present)"

/-- The wording of a fault in a variable entry. -/
def VariableFault.message : VariableFault → String
  | .negativeDimension dim => s!"negative dimension {dim}"
  | .unknownElementType code => s!"unknown element type code {code}"
  | .shapeOverflow shape => s!"shape {shape.text} overflows"
  | .bufferTooSmall elements buffer capacity =>
    s!"{elements} elements do not fit buffer {buffer} of {capacity} elements"

/-- How many inputs an operator takes: one number, or a range with both ends. -/
def arityText (least most : Nat) : String :=
  if least = most then toString least else s!"{least}..={most}"

/-- The wording of a fault in a node. -/
def NodeFault.message : NodeFault → String
  | .duplicateOutput index => s!"variable {index} listed twice as an output"
  | .aliasedOutput index => s!"variable {index} is both an input and an output"
  | .arity op least most outputs givenInputs givenOutputs =>
    s!"{op.text} takes {arityText least most} inputs and {outputs} outputs, " ++
      s!"got {givenInputs} and {givenOutputs}"
  | .inputSize op index shape expected =>
    s!"{op.text} input variable {index} has shape {shape.text}, " ++
      s!"output has {expected} elements"
  | .baseAxis axis input => s!"base_axis {axis} out of range for input {input.text}"
  | .weightShape weight input axis =>
    s!"weight {weight.text} does not match input {input.text} at axis {axis}"
  | .outputSize output outer inner =>
    s!"output {output.text} does not hold {outer}x{inner} elements"
  | .biasSize bias features => s!"bias {bias.text} does not hold {features} elements"
  | .softmaxAxis axis shape => s!"softmax axis {axis} out of range for {shape.text}"
  | .refused detail => detail

/-- The wording of a descriptor fault. -/
def DescriptorFault.message : DescriptorFault → String
  | .truncated part needed actual =>
    s!"descriptor truncated in {part.label}: need {needed} bytes, have {actual}"
  | .unsupportedVersion version =>
    s!"unsupported descriptor version {version} (supported: [{descriptorVersion}])"
  | .badBlockOffset block offset dataSize =>
    s!"block {block} has invalid offset {offset} (data region is {dataSize} bytes)"
  | .indexOutOfRange what index count =>
    s!"{what.label} index {index} out of range (count: {count})"
  | .blockTooShort block what needed actual =>
    s!"block {block} holding {what.label} is {actual} bytes, need {needed}"
  | .invalidBuffer buffer size => s!"invalid buffer {buffer}: negative element count {size}"
  | .invalidVariable index fault => s!"invalid variable {index}: {fault.message}"
  | .invalidNode function fault => s!"invalid function {function}: {fault.message}"
  | .invalidParameters op fault => s!"invalid parameters for {op.text}: {fault.message}"

end Inference
