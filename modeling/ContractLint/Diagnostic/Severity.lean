/-
# Severities

A finding is an error or a warning, and an error weighs more.  A threshold is a severity, too: what
weighs at least as much fails a run.
-/
import ContractLint.Settings.Error
import ContractLint.Text.Blank
import ContractLint.Text.Lowercase

namespace ContractLint

/-- How much a finding weighs. -/
inductive Severity where
  | error
  | warning
deriving DecidableEq, Repr, Inhabited

namespace Severity

/-- The severity's name in reports. -/
def label : Severity → String
  | error => "error"
  | warning => "warning"

/-- The colour of the severity's name on a terminal. -/
def color : Severity → String
  | error => "red"
  | warning => "yellow"

/-- The weight of a severity. -/
def rank : Severity → Nat
  | error => 2
  | warning => 1

/-- Whether `s` weighs at least as much as `t`. -/
def atLeast (s t : Severity) : Bool :=
  t.rank ≤ s.rank

/-- Reads a severity's name, in any letter case and with blanks around it. -/
def parse (text : String) : Except ConfigError Severity :=
  let wanted := Text.lower (Text.trim text)
  match [error, warning].find? (·.label == wanted) with
  | some s => .ok s
  | none => .error (.unknownSeverity text)

end Severity

end ContractLint
