/-
# Contracts and their labels

Routines with more than one statement state a contract, and every assertion carries a label.
-/
import ContractLint.Rule.Subject
import ContractLint.Span.Statement

namespace ContractLint

namespace ContractPresence

/-- Whether a feature lacks a contract that it should have. -/
def isMissing (f : Feature) : Bool :=
  f.isRoutine && f.body.hasInstructions && !f.hasContract &&
    Rulebook.statementThreshold < statementCount f.body.tokens

/-- The finding about a feature without a contract. -/
def finding (s : Subject) (f : Feature) : Diagnostic :=
  let statements := statementCount f.body.tokens
  s.report Rulebook.contractPresence
    s!"{f.name.text} has {statements} statements but no require or ensure clause" f.name.location
    (some "state the routine's contract with labeled require/ensure assertions")

/-- The findings of the rule. -/
def check (s : Subject) : List Diagnostic :=
  ((s.tree.features.map Prod.snd).filter isMissing).map (finding s)

/-- The checker of the rule. -/
def checker : Checker :=
  .ofRules "ContractPresenceChecker" [Rulebook.contractPresence] check

end ContractPresence

namespace AssertionLabeling

/-- The greatest length of an expression in a message. -/
def snippetLength : Nat := 40

/-- An expression as a message shows it. -/
def snippet (text : String) : String :=
  if text.length > snippetLength then
    String.ofList (text.toList.take (snippetLength - 3)) ++ "..."
  else text

/-- The finding about an assertion without a label in a block of this kind. -/
def finding (s : Subject) (kind : AssertionKind) (a : Assertion) : Diagnostic :=
  let shown := snippet a.expressionText
  s.report Rulebook.assertionLabeling s!"unlabeled {kind.label} '{shown}'" a.location
    (some "prefix the assertion with 'label: '")

/-- The findings of the rule. -/
def check (s : Subject) : List Diagnostic :=
  s.tree.blocks.flatMap fun b =>
    (b.assertions.filter (·.label.isNone)).map (finding s b.kind)

/-- The checker of the rule. -/
def checker : Checker :=
  .ofRules "AssertionLabelingChecker" [Rulebook.assertionLabeling] check

end AssertionLabeling

end ContractLint
