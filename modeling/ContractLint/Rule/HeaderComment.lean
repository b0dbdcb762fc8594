/-
# Header comments

A routine has a comment below its signature.
-/
import ContractLint.Rule.Subject

namespace ContractLint.HeaderComment

/-- The findings of the rule. -/
def check (s : Subject) : List Diagnostic :=
  (s.tree.routines.filter (·.headerComment.isNone)).map fun f =>
    s.report Rulebook.headerComment s!"routine {f.name.text} has no header comment"
      f.name.location (some "describe the routine in a comment below its signature")

/-- The checker of the rule. -/
def checker : Checker :=
  .ofRules "HeaderCommentChecker" [Rulebook.headerComment] check

end ContractLint.HeaderComment
