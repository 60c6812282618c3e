import Inference.Binding.Slot
import Inference.Text.Decimal
import Inference.Total

set_option autoImplicit false
set_option relaxedAutoImplicit false

/-!
# Metrics

The timings of one complete pass: how long it took, and how long each function took. Times are
whole nanoseconds.

## Main definitions

* `Timing` — one function of a pass.
* `Metrics` — a pass.
* `Metrics.record`, `Metrics.finish` — collecting them while the pass is on.
* `Metrics.slowest?` — the function that took longest.
* `Metrics.summary`, `Metrics.report` — metrics in one line and as a structured value.
-/

namespace Inference

/-- The timing of one function. -/
structure Timing where
  /-- Position in the function table. -/
  index : Nat
  op : Operator
  /-- The implementation that ran. -/
  source : Source
  nanos : Nat
deriving DecidableEq

/-- The timings of one complete pass. -/
structure Metrics where
  /-- How long the whole pass took. -/
  passNanos : Nat := 0
  /-- The functions, in the order of execution. -/
  functions : List Timing := []
deriving DecidableEq

/-- Nanoseconds in a second. -/
def nanosPerSecond : Nat := 1000000000

/-- Nanoseconds as milliseconds, in double precision: seconds and the rest are added before they
are scaled. -/
def milliseconds (nanos : Nat) : Float :=
  let seconds := (nanos / nanosPerSecond).toUInt64.toFloat
  let rest := (nanos % nanosPerSecond).toUInt64.toFloat
  (seconds + rest / 1e9) * 1000.0

/-- Nanoseconds as a text in milliseconds, with three places. -/
def millisecondsText (nanos : Nat) : String :=
  fixedDouble 3 (milliseconds nanos) ++ "ms"

/-- Nanoseconds as a structured value: whole seconds and the rest. -/
def durationReport (nanos : Nat) : Report :=
  .record
    [("secs", .count (nanos / nanosPerSecond)), ("nanos", .count (nanos % nanosPerSecond))]

/-- A timing as a structured value. -/
def Timing.report (timing : Timing) : Report :=
  .record
    [("index", .count timing.index), ("function_type", timing.op.report),
     ("source", timing.source.report), ("duration", durationReport timing.nanos)]

namespace Metrics

/-- The metrics with one more function. -/
def record (metrics : Metrics) (timing : Timing) : Metrics :=
  { metrics with functions := metrics.functions ++ [timing] }

/-- The metrics of a pass that is over, and how long it took. -/
def finish (metrics : Metrics) (nanos : Nat) : Metrics :=
  { metrics with passNanos := nanos }

/-- Nanoseconds that all functions took. -/
def computeNanos (metrics : Metrics) : Nat :=
  total (metrics.functions.map Timing.nanos)

/-- The slower of two timings; the second one where they are equal. -/
def slower (best : Option Timing) (timing : Timing) : Option Timing :=
  match best with
  | none => some timing
  | some other => if timing.nanos < other.nanos then some other else some timing

/-- The last of the functions that took longest, if any ran. -/
def slowest? (metrics : Metrics) : Option Timing :=
  metrics.functions.foldl slower none

/-- One line about a pass. -/
def summary (metrics : Metrics) : String :=
  let slowest := match metrics.slowest? with
    | some timing =>
      s!", slowest [{timing.index}] {timing.op.text} {millisecondsText timing.nanos}"
    | none => ""
  s!"Forward: {millisecondsText metrics.passNanos} total, {metrics.functions.length} functions, " ++
    s!"{millisecondsText metrics.computeNanos} in execute routines{slowest}"

/-- Metrics as a structured value. -/
def report (metrics : Metrics) : Report :=
  .record
    [("total_duration", durationReport metrics.passNanos),
     ("functions", .list (metrics.functions.map Timing.report))]

end Metrics

end Inference
