import Inference.Session.Basic
import Inference.Text.Escaped

set_option autoImplicit false
set_option relaxedAutoImplicit false

/-!
# Diagnostics of a session

One line that shows the stage of a session, its settings, its overrides and how many functions it
has bound.

## Main definitions

* `Session.diagnostic` — the line.
-/

namespace Inference

/-- A name with fields in braces. -/
def diagnosticRecord (name : String) (fields : List (String × String)) : String :=
  name ++ " \x7b " ++ ", ".intercalate (fields.map fun (key, value) => key ++ ": " ++ value) ++
    " \x7d"

/-- A sentinel. -/
def sentinelDiagnostic : Option UInt16 → String
  | some variant => s!"Some({variant})"
  | none => "None"

/-- The settings and their values. -/
def Settings.diagnostic (settings : Settings) : String :=
  diagnosticRecord "RuntimeConfig"
    [("memory_budget", Text.escaped settings.memoryBudget),
     ("builtin_variant", sentinelDiagnostic settings.builtinVariant),
     ("enable_profiling", toString settings.profiling)]

/-- The operators with overrides and how many each has, the number of built-in implementations,
and the sentinel. -/
def Dispatch.diagnostic {σ : Type} (dispatch : Dispatch σ) : String :=
  let chains := dispatch.chains.entries.map fun (key, chain) =>
    Text.escaped (Operator.text (.ofKey key)) ++ s!": {chain.length}"
  diagnosticRecord "DispatchTable"
    [("chains", "\x7b" ++ ", ".intercalate chains ++ "\x7d"),
     ("builtins", toString dispatch.registry.count),
     ("builtin_variant", sentinelDiagnostic dispatch.sentinel)]

/-- One line about a session. -/
def Session.diagnostic {σ : Type} (session : Session σ) : String :=
  diagnosticRecord "Context"
    [("state", session.stage.diagnostic), ("config", session.settings.diagnostic),
     ("dispatch", session.dispatch.diagnostic),
     ("functions", toString ((session.held.map fun bound => bound.functions.length).getD 0))]

end Inference
