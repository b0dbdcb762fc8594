/-
# Diagnostics

One finding about one file, as reports show it.  Two findings are REPEATS of each other when path,
rule, location and message agree (`Diagnostic.identity`).  Reports are ordered by line, column, rule
and message (`Diagnostic.precedes`); the message decides between different findings of one rule at
one place, so the order never depends on which checker spoke first.
-/
import ContractLint.Diagnostic.RuleId
import ContractLint.Diagnostic.Severity
import ContractLint.Location
import ContractLint.Source

namespace ContractLint

/-- A finding. -/
structure Diagnostic where
  rule : RuleId
  severity : Severity
  message : String
  location : Location := .unknown
  /-- Advice on what to do about it. -/
  fix : Option String := none
  path : String := Source.anonymousPath
deriving DecidableEq, Repr, Inhabited

namespace Diagnostic

/-- Whether the finding is an error. -/
def isError (d : Diagnostic) : Bool :=
  d.severity == .error

/-- What repeats of a finding have in common. -/
def identity (d : Diagnostic) : String × RuleId × Location × String :=
  (d.path, d.rule, d.location, d.message)

/-- Whether `a` may stand before `b` in a report. -/
def precedes (a b : Diagnostic) : Bool :=
  let key := compare a.location.line b.location.line
    |>.then (compare a.location.column b.location.column)
    |>.then (compare a.rule b.rule)
    |>.then (compare a.message b.message)
  key.isLE

/-- The findings in report order; findings that tie keep their order. -/
def sort (ds : List Diagnostic) : List Diagnostic :=
  ds.mergeSort precedes

/-- The advice, if it says anything. -/
def advice? (d : Diagnostic) : Option String :=
  d.fix.filter (· != "")

/-- Path, line and column as they start a line of a report. -/
def place (d : Diagnostic) : String :=
  s!"{d.path}:{d.location.label}:"

/-- The finding on one line. -/
def toText (d : Diagnostic) : String :=
  s!"{d.place} {d.severity.label} [{d.rule}] {d.message}"

end Diagnostic

end ContractLint
