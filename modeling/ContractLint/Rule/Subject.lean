/-
# What rules look at

A `Subject` is one analysed file: its lexed text and its tree.  A `Checker` looks at a subject for
the findings of a family of rules.  It depends on nothing else, so the checkers may run in any
order.  A checker may fail; then it has a reason instead of findings.
-/
import ContractLint.Grammar.Class
import ContractLint.Rulebook
import ContractLint.Token.Report
import ContractLint.Tree.Collect

namespace ContractLint

/-- One analysed file. -/
structure Subject where
  lexed : Lexed
  tree : Tree

namespace Subject

/-- The path of the file. -/
def path (s : Subject) : String :=
  s.lexed.source.path

/-- A finding of a rule in the file, with the rule's severity. -/
def report (s : Subject) (rule : RuleSpec) (message : String) (location : Location)
    (fix : Option String) : Diagnostic :=
  { rule := rule.id, severity := rule.severity, message := message, location := location,
    fix := fix, path := s.path }

end Subject

/-- A way to find violations of some rules. -/
structure Checker where
  /-- The checker's own name. -/
  name : String
  family : String
  rules : List RuleId
  check : Subject → Except String (List Diagnostic)

namespace Checker

/-- A checker that never fails. -/
def ofRules (name : String) (rules : List RuleSpec) (check : Subject → List Diagnostic) :
    Checker where
  name := name
  family := (rules.head?.map RuleSpec.family).getD ""
  rules := rules.map RuleSpec.id
  check := fun s => .ok (check s)

/-- How listings name a checker. -/
def shown (c : Checker) : String :=
  s!"<{c.name} '{c.family}'>"

end Checker

end ContractLint
