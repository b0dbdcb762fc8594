/-
# Settings of a run

What a run is asked to do, read from the values of the command line and the environment.  The
values are checked in a fixed order, so the first fault is always the same: rules, threshold,
number of workers in the environment, format, number of workers asked for.

A value may have been given and then dropped (`Given.dropped`).  That is not the same as a value
that was not given, for which a default stands.
-/
import ContractLint.Report
import ContractLint.Rulebook
import ContractLint.Text.Integer
import ContractLint.Text.Split

namespace ContractLint

/-- What was given for a value: the value itself, or something of which nothing is left. -/
inductive Given (α : Type) where
  | value (a : α)
  | dropped
deriving DecidableEq, Repr, Inhabited

/-- The values of a run before they are checked. -/
structure Request where
  paths : List String := []
  /-- Names of rules and families between commas; none asks for every rule. -/
  rules : Option (Given String) := none
  format : Given String := .value "text"
  threshold : Given String := .value "error"
  /-- The number of workers; none leaves it to the environment. -/
  jobs : Option (Given Int) := none
  noColor : Bool := false
  /-- The file for the report. -/
  output : Option (Given String) := none
  dumpTree : Bool := false
deriving DecidableEq, Repr, Inhabited

/-- What a run is asked to do. -/
structure Settings where
  paths : List String
  rules : List RuleId
  format : ReportFormat
  threshold : Severity
  jobs : Nat
  color : Bool
  output : Option (Given String)
  dumpTree : Bool
  /-- Somebody does the work. -/
  jobs_pos : 0 < jobs
deriving Repr

namespace Settings

/-- The rules that a list of names between commas selects. -/
def selection (names : Option String) : Except ConfigError (List RuleId) :=
  Rulebook.resolve (names.map (Text.split ','))

/-- The number of workers that the environment asks for, one if it asks for none. -/
def defaultJobs (env : Environment) : Except ConfigError Int :=
  let raw := Text.trim (env.get jobsVariable)
  if raw = "" then .ok 1
  else
    match Text.integer? raw with
    | none => .error (.jobsNotInteger raw)
    | some jobs => if jobs < 1 then .error (.jobsVariableTooSmall jobs) else .ok jobs

/-- Whether the command line and the environment allow colour. -/
def colorAllowed (noColor : Bool) (env : Environment) : Bool :=
  !noColor && !env.asksForPlain

/-- The format with a name, or the complaint about it. -/
def formatOf (name : String) : Except ConfigError ReportFormat :=
  match ReportFormat.ofName? name with
  | some format => .ok format
  | none => .error (.unknownFormat name)

/-- What a check says, as a step towards settings. -/
def step {α : Type} (checked : Except ConfigError α) : Except Rejection α :=
  checked.mapError .refused

/-- The rules that a request asks for. -/
def givenRules : Option (Given String) → Except Rejection (List RuleId)
  | none => step (selection none)
  | some (.value names) => step (selection (some names))
  | some .dropped => .error (.broken .rules)

/-- The threshold that a request asks for. -/
def givenThreshold : Given String → Except Rejection Severity
  | .value text => step (Severity.parse text)
  | .dropped => .error (.broken .threshold)

/-- The number of workers that a request asks for, or else the environment. -/
def givenJobs (env : Environment) : Option (Given Int) → Except Rejection (Given Int)
  | none => step ((defaultJobs env).map .value)
  | some jobs => .ok jobs

/-- The format that a request asks for. -/
def givenFormat : Given String → Except Rejection ReportFormat
  | .value name => step (formatOf name)
  | .dropped => .error (.refused .droppedFormat)

/-- The settings that a request asks for. -/
def ofRequest (r : Request) (env : Environment) : Except Rejection Settings := do
  let rules ← givenRules r.rules
  let threshold ← givenThreshold r.threshold
  let jobs ← givenJobs env r.jobs
  let format ← givenFormat r.format
  match jobs with
  | .dropped => .error (.broken .jobs)
  | .value jobs =>
    if h : 0 < jobs then
      return { paths := r.paths, rules := rules, format := format, threshold := threshold
               jobs := jobs.toNat, color := colorAllowed r.noColor env, output := r.output
               dumpTree := r.dumpTree, jobs_pos := by omega }
    else .error (.refused (.jobsTooSmall jobs))

end Settings

end ContractLint
