import Inference.Session.Basic

set_option autoImplicit false
set_option relaxedAutoImplicit false

/-!
# Looking into a session

What a host can ask of a session that is ready: facts about its inputs, outputs and functions, and
the contents of inputs and outputs.

## Main definitions

* `Session.count`, `Session.argument` — the inputs or outputs.
* `Session.read`, `Session.write` — contents as bytes.
* `Session.readSingles`, `Session.writeInputSingles` — contents as float values.
* `Session.functionCount`, `Session.bindingSource`, `Session.lastMetrics?` — the functions.
-/

namespace Inference

/-- The variables on one side of a bound network. -/
def Bound.arguments {σ : Type} (bound : Bound σ) : Side → List Variable
  | .input => bound.inputs
  | .output => bound.outputs

/-- A variable on one side of a bound network. -/
def Bound.argument {σ : Type} (bound : Bound σ) (side : Side) (index : Nat) :
    Except SessionFault Variable :=
  let vs := bound.arguments side
  orFault vs[index]? (.indexOutOfRange (.arguments side) index vs.length)

/-- The contents of a variable of a bound network. -/
def Bound.region {σ : Type} (bound : Bound σ) (v : Variable) : Except SessionFault Bytes :=
  orFault (bound.arena.region? v.index) (.indexOutOfRange .regions v.index bound.arena.count)

/-- The contents of a variable of a bound network as float values. -/
def Bound.singles {σ : Type} (bound : Bound σ) (v : Variable) :
    Except SessionFault (List Single) := do
  if v.elementType ≠ .float then throw (.typeMismatch v.index v.elementType)
  let bytes ← bound.region v
  orFault (Single.ofBytes? bytes) (.typeMismatch v.index v.elementType)

namespace Session

variable {σ : Type}

/-- The bound network of a session that is ready, for an operation. -/
def bound (session : Session σ) (operation : Operation) : Except SessionFault (Bound σ) :=
  orFault session.ready? (session.refusal operation)

/-! ## Inputs and outputs -/

/-- Number of inputs or outputs. -/
def count (session : Session σ) (side : Side) : Except SessionFault Nat := do
  let bound ← session.bound (.query side)
  return (bound.arguments side).length

/-- The variable of an input or output. -/
def argument (session : Session σ) (side : Side) (index : Nat) :
    Except SessionFault Variable := do
  let bound ← session.bound (.query side)
  bound.argument side index

/-- Number of elements of an input or output. -/
def elementCount (session : Session σ) (side : Side) (index : Nat) : Except SessionFault Nat :=
  (session.argument side index).map Variable.elementCount

/-- Bytes that an input or output takes. -/
def byteSize (session : Session σ) (side : Side) (index : Nat) : Except SessionFault Nat :=
  (session.argument side index).map Variable.byteSize

/-- The contents of an input or output. -/
def read (session : Session σ) (side : Side) (index : Nat) : Except SessionFault Bytes := do
  let bound ← session.bound (.access side)
  let v ← bound.argument side index
  bound.region v

/-- The session with bytes laid over the contents of an input or output from a position on, as
far as they fit. -/
def write (session : Session σ) (side : Side) (index offset : Nat) (bytes : Bytes) :
    Except SessionFault (Session σ) := do
  let bound ← session.bound (.access side)
  let v ← bound.argument side index
  let _ ← bound.region v
  return { session with
    held := some { bound with arena := bound.arena.write v.index offset bytes } }

/-- What a host asks for when it views contents as float values: to get at the inputs, or to know
about the outputs. -/
def viewOperation : Side → Operation
  | .input => .access .input
  | .output => .query .output

/-- The contents of an input or output as float values. -/
def readSingles (session : Session σ) (side : Side) (index : Nat) :
    Except SessionFault (List Single) := do
  let bound ← session.bound (viewOperation side)
  let v ← bound.argument side index
  bound.singles v

/-- The session with float values laid over the contents of an input, as far as they fit. -/
def writeInputSingles (session : Session σ) (index : Nat) (values : List Single) :
    Except SessionFault (Session σ) := do
  let _ ← session.readSingles .input index
  session.write .input index 0 (Single.bytesOf values)

/-! ## Functions -/

/-- Number of functions. -/
def functionCount (session : Session σ) : Except SessionFault Nat := do
  let bound ← session.bound .queryFunctions
  return bound.functions.length

/-- The implementation that a function is bound to. -/
def bindingSource (session : Session σ) (index : Nat) : Except SessionFault Source := do
  let bound ← session.bound .queryFunctions
  let count := bound.functions.length
  let function ← orFault bound.functions[index]? (.indexOutOfRange .functions index count)
  return function.source

/-- The timings of the latest complete pass, if passes are timed. -/
def lastMetrics? (session : Session σ) : Option Metrics :=
  session.latest

end Session

end Inference
