/-
# Rule identifiers

A finding is reported under a rule identifier.  The rulebook fixes those below; a report may carry
any other text, so an identifier is a string.
-/

namespace ContractLint

/-- The name under which a finding is reported. -/
abbrev RuleId := String

namespace RuleId

def naming : RuleId := "naming"
def contractPresence : RuleId := "contract-presence"
def assertionLabeling : RuleId := "assertion-labeling"
def attachment : RuleId := "attachment"
def commandQuery : RuleId := "command-query"
def onceClass : RuleId := "once-class"
def invalidEscape : RuleId := "invalid-escape"
def featureClause : RuleId := "feature-clause"
def tabExpected : RuleId := "tab-expected"
def trailingWhitespace : RuleId := "trailing-whitespace"
def headerComment : RuleId := "header-comment"
def classFileName : RuleId := "class-file-name"
def agentForm : RuleId := "agent-form"
def quantifierForm : RuleId := "quantifier-form"

/-- The class text does not parse.  This one and the next two are never deselected. -/
def syntaxError : RuleId := "syntax-error"

/-- The file cannot be read. -/
def ioError : RuleId := "io-error"

/-- A checker, or the analysis of a file, failed. -/
def internalError : RuleId := "internal-error"

end RuleId

end ContractLint
