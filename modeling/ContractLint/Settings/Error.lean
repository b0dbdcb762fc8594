/-
# Faults of a configuration

Why the values of a run are refused.  Each fault is a cause; `ConfigError.message` words it.  A value
that was dropped is refused as well, or leaves a gap at which the run breaks off.
-/
import ContractLint.Text.Quoted

namespace ContractLint

/-- Why a run's values are refused. -/
inductive ConfigError where
  /-- The text names no severity. -/
  | unknownSeverity (text : String)
  /-- The names are neither rules nor families. -/
  | unknownRules (names : List String)
  /-- The text names no report format. -/
  | unknownFormat (text : String)
  /-- A format was asked for, but its name was dropped. -/
  | droppedFormat
  /-- The environment's number of workers is no integer. -/
  | jobsNotInteger (text : String)
  /-- The environment's number of workers is not positive. -/
  | jobsVariableTooSmall (jobs : Int)
  /-- The requested number of workers is not positive. -/
  | jobsTooSmall (jobs : Int)
deriving DecidableEq, Repr, Inhabited

/-- The environment variable with the number of workers. -/
def jobsVariable : String := "EIFLINT_JOBS"

/-- The wording of a fault. -/
def ConfigError.message : ConfigError → String
  | unknownSeverity text =>
    let shown := Text.quoted text
    s!"unknown severity {shown} (expected error or warning)"
  | unknownRules names =>
    let listed := ", ".intercalate names
    s!"unknown rule or family: {listed} (see --list-rules)"
  | unknownFormat text =>
    let shown := Text.quoted text
    s!"unknown format {shown} (expected one of text, json)"
  | droppedFormat => "unknown format [] (expected one of text, json)"
  | jobsNotInteger text =>
    let shown := Text.quoted text
    s!"{jobsVariable} must be an integer, got {shown}"
  | jobsVariableTooSmall jobs => s!"{jobsVariable} must be at least 1, got {jobs}"
  | jobsTooSmall jobs => s!"--jobs must be at least 1, got {jobs}"

/-- A value that a run cannot do without, but that was dropped. -/
inductive Gap where
  | rules
  | threshold
  | jobs
deriving DecidableEq, Repr, Inhabited

/-- What is missing at a gap. -/
def Gap.message : Gap → String
  | rules => "no rules are left to choose from"
  | threshold => "no threshold is left to judge by"
  | jobs => "no number of workers is left to share the work"

/-- Why a request leads to no settings. -/
inductive Rejection where
  /-- The request is refused, and the fault can be reported. -/
  | refused (error : ConfigError)
  /-- The run breaks off. -/
  | broken (gap : Gap)
deriving DecidableEq, Repr, Inhabited

end ContractLint
