/-
# The registry and its runs

`registry` lists the checkers, and `runCheckers` runs those that look for a selected rule.  A checker
reports selected rules only; a checker that fails reports one internal error instead.
-/
import ContractLint.Rule.Agent
import ContractLint.Rule.Attachment
import ContractLint.Rule.CommandQuery
import ContractLint.Rule.Contract
import ContractLint.Rule.Escape
import ContractLint.Rule.FeatureClause
import ContractLint.Rule.FileName
import ContractLint.Rule.HeaderComment
import ContractLint.Rule.Layout
import ContractLint.Rule.Naming
import ContractLint.Rule.OnceClass
import ContractLint.Rule.Quantifier

namespace ContractLint

/-- The checkers. -/
def registry : List Checker :=
  [Naming.checker, ContractPresence.checker, AssertionLabeling.checker, Attachment.checker,
   CommandQuery.checker, OnceClass.checker, EscapeRule.checker, FeatureClause.checker,
   Layout.checker, HeaderComment.checker, FileName.checker, AgentForm.checker,
   QuantifierForm.checker]

/-- Whether a checker looks for one of the selected rules. -/
def Checker.isSelected (c : Checker) (selected : List RuleId) : Bool :=
  c.rules.any selected.contains

/-- The internal error of a checker that failed. -/
def Checker.failure (c : Checker) (path reason : String) : Diagnostic :=
  { rule := .internalError, severity := .error
    message := s!"checker '{c.family}' failed: {reason}", path := path }

/-- What a checker reports when these rules are selected. -/
def Checker.run (c : Checker) (selected : List RuleId) (s : Subject) : List Diagnostic :=
  match c.check s with
  | .ok found => found.filter fun d => selected.contains d.rule
  | .error reason => [c.failure s.path reason]

/-- A checker that ran, and what it reported. -/
structure CheckerRun where
  checker : Checker
  findings : List Diagnostic

/-- Runs the checkers that look for a selected rule. -/
def runCheckers (checkers : List Checker) (selected : List RuleId) (s : Subject) :
    List CheckerRun :=
  (checkers.filter (·.isSelected selected)).map fun c => ⟨c, c.run selected s⟩

namespace CheckerRun

/-- The findings of all runs. -/
def diagnostics (runs : List CheckerRun) : List Diagnostic :=
  runs.flatMap CheckerRun.findings

/-- The families of the runs in the order of their first run, each with the number of findings of
its last run. -/
def byFamily (runs : List CheckerRun) : List (String × Nat) :=
  (runs.map (·.checker.family)).eraseDups.map fun family =>
    let last := runs.reverse.find? (·.checker.family == family)
    (family, (last.map (·.findings.length)).getD 0)

/-- A summary of the runs; `timing` stands for the time each of them took. -/
def summary (timing : String) (runs : List CheckerRun) : String :=
  let total := (diagnostics runs).length
  "\n".intercalate <|
    s!"rule engine: {total} findings" ::
      (byFamily runs).map fun (family, n) => s!"  {family}: {n} findings ({timing})"

end CheckerRun

end ContractLint
