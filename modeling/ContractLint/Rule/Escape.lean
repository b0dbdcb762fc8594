/-
# Escapes

The malformed escapes that the scan found: errors in literals, warnings in comments.
-/
import ContractLint.Rule.Subject

namespace ContractLint.EscapeRule

/-- Whether a finding points into a comment. -/
def inComment (s : Subject) (d : Diagnostic) : Bool :=
  (s.lexed.tokenAt? d.location.offset).any (·.kind == .comment)

/-- The severity of a malformed escape by its place. -/
def severity (s : Subject) (d : Diagnostic) : Severity :=
  if inComment s d then Rulebook.commentSeverity else Rulebook.invalidEscape.severity

/-- The findings of the rule. -/
def check (s : Subject) : List Diagnostic :=
  (s.lexed.diagnostics.filter (·.rule == .invalidEscape)).map fun d =>
    { d with severity := severity s d }

/-- The checker of the rule. -/
def checker : Checker :=
  .ofRules "EscapeChecker" [Rulebook.invalidEscape] check

end ContractLint.EscapeRule
