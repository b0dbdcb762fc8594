/-
# Reports

Findings as text or as JSON.  A text report has colour only when it is wanted, goes to a terminal,
and the environment does not ask for plain reports.
-/
import ContractLint.Environment
import ContractLint.Report.Json
import ContractLint.Report.Tally
import ContractLint.Report.Text

namespace ContractLint

/-- How a report is written. -/
inductive ReportFormat where
  | text
  | json
deriving DecidableEq, Repr, Inhabited

namespace ReportFormat

/-- The format's name. -/
def label : ReportFormat → String
  | text => "text"
  | json => "json"

/-- The format with a name. -/
def ofName? (name : String) : Option ReportFormat :=
  [text, json].find? (·.label == name)

/-- The complaint about a name that no format has. -/
def unknownMessage (name : String) : String :=
  let shown := Text.quoted name
  s!"unknown report format {shown}"

end ReportFormat

namespace Report

/-- The report of findings.  A terminal is written to in sequences. -/
def render (format : ReportFormat) (color : Bool) (ds : List Diagnostic) : String :=
  match format with
  | .text => text ansi color ds
  | .json => json ds

/-- Whether a report has colour: it is wanted, goes to a terminal, and the environment has nothing
against it. -/
def useColor (env : Environment) (wanted terminal : Bool) : Bool :=
  wanted && !env.asksForPlain && terminal

end Report

end ContractLint
