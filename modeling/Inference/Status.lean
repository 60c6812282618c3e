set_option autoImplicit false
set_option relaxedAutoImplicit false

/-!
# Status codes

The closed set of codes that every outcome belongs to.

## Main definitions

* `Status` — the codes.
* `Status.label`, `Status.key` — their words in texts and in structured output.
-/

namespace Inference

/-- The kinds of outcomes. -/
inductive Status where
  | noError
  /-- An override declines a node; only used while nodes are bound. -/
  | functionNotMatched
  | invalidState
  | malformedDescriptor
  | unsupportedOperator
  | operatorExecutionFailure
  | outOfMemory
  | invalidConfig
  | invalidArgument
deriving DecidableEq

namespace Status

/-- The words for a status. -/
def label : Status → String
  | noError => "no error"
  | functionNotMatched => "function not matched"
  | invalidState => "invalid state"
  | malformedDescriptor => "malformed descriptor"
  | unsupportedOperator => "unsupported operator"
  | operatorExecutionFailure => "operator execution failure"
  | outOfMemory => "out of memory"
  | invalidConfig => "invalid configuration"
  | invalidArgument => "invalid argument"

/-- The name of a status in structured output. -/
def key : Status → String
  | noError => "no_error"
  | functionNotMatched => "function_not_matched"
  | invalidState => "invalid_state"
  | malformedDescriptor => "malformed_descriptor"
  | unsupportedOperator => "unsupported_operator"
  | operatorExecutionFailure => "operator_execution_failure"
  | outOfMemory => "out_of_memory"
  | invalidConfig => "invalid_config"
  | invalidArgument => "invalid_argument"

/-- Whether a status stands for success. -/
def isOk (status : Status) : Bool :=
  status = noError

end Status

end Inference
