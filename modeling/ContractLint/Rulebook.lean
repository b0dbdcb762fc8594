/-
# The rulebook

The fixed table of rules.  A rule has an identifier, a family, a severity, a description and
parameters.  Every selectable rule belongs to one family, and a selection names rules and families
alike.  Three rules are always on: they cannot be deselected, and naming them selects nothing.
-/
import ContractLint.Settings.Error
import ContractLint.Diagnostic.RuleId
import ContractLint.Diagnostic.Severity
import ContractLint.Text.Blank
import ContractLint.Text.Lowercase

namespace ContractLint

/-- The value of a rule's parameter. -/
inductive Setting where
  | text (s : String)
  | number (n : Nat)
  | severity (s : Severity)
  | names (ns : List String)
deriving DecidableEq, Repr, Inhabited

/-- One entry of the rulebook. -/
structure RuleSpec where
  id : RuleId
  family : String
  severity : Severity
  description : String
  settings : List (String × Setting) := []
deriving DecidableEq, Repr, Inhabited

/-- `s` filled with spaces up to `width` characters. -/
def padRight (width : Nat) (s : String) : String :=
  s ++ String.ofList (List.replicate (width - s.length) ' ')

/-- The entry as a line of the rulebook's listing. -/
def RuleSpec.describe (r : RuleSpec) : String :=
  let id := padRight 22 r.id
  let family := padRight 20 r.family
  let severity := padRight 8 r.severity.label
  s!"{id} {family} {severity} {r.description}"

namespace Rulebook

/-- The version of the table. -/
def version : String := "2024.1"

/-! ## 1. Parameters -/

/-- The categories that a feature clause may have. -/
def categories : List String :=
  ["Initialization", "Access", "Measurement", "Status report", "Status setting",
   "Element change", "Removal", "Resizing", "Transformation", "Conversion", "Duplication",
   "Basic operations", "Comparison", "Output", "Miscellaneous", "Implementation",
   "Inapplicable", "Obsolete", "Query", "Queries", "Command", "Commands", "Constants",
   "Cursor movement", "Iteration"]

/-- A routine with more statements than this needs a contract. -/
def statementThreshold : Nat := 1

/-- The severity of a malformed escape in a comment. -/
def commentSeverity : Severity := .warning

/-- The severity of an agent that spells out open arguments only. -/
def allOpenSeverity : Severity := .warning

/-- The file name extension of class texts. -/
def extension : String := ".e"

/-! ## 2. Rules -/

def naming : RuleSpec where
  id := .naming
  family := "naming"
  severity := .warning
  description := "class names upper case; feature, argument and local names lower snake case"
  settings := [("class_pattern", .text "[A-Z][A-Z0-9_]*"),
    ("feature_pattern", .text "[a-z][a-z0-9_]*")]

def contractPresence : RuleSpec where
  id := .contractPresence
  family := "contract-presence"
  severity := .error
  description := "non-trivial routines carry a precondition or a postcondition"
  settings := [("statement_threshold", .number statementThreshold)]

def assertionLabeling : RuleSpec where
  id := .assertionLabeling
  family := "assertion-labeling"
  severity := .error
  description := "every assertion entry is labeled"

def attachment : RuleSpec where
  id := .attachment
  family := "attachment"
  severity := .warning
  description := "attached arguments are not tested against Void in their own precondition"

def commandQuery : RuleSpec where
  id := .commandQuery
  family := "command-query"
  severity := .warning
  description := "queries do not change the attributes their postcondition observes"

def onceClass : RuleSpec where
  id := .onceClass
  family := "once-class"
  severity := .error
  description := "creation procedures of a once class are once procedures of the class"

def invalidEscape : RuleSpec where
  id := .invalidEscape
  family := "escape"
  severity := .error
  description := "escape sequences are well formed (warning inside comments)"
  settings := [("comment_severity", .severity commentSeverity)]

def featureClause : RuleSpec where
  id := .featureClause
  family := "feature-clause"
  severity := .warning
  description := "features sit in a feature clause with a recognised category comment"
  settings := [("categories", .names categories)]

def tabExpected : RuleSpec where
  id := .tabExpected
  family := "layout"
  severity := .warning
  description := "indentation uses tab characters only"

def trailingWhitespace : RuleSpec where
  id := .trailingWhitespace
  family := "layout"
  severity := .warning
  description := "lines carry no trailing whitespace"

def headerComment : RuleSpec where
  id := .headerComment
  family := "header-comment"
  severity := .warning
  description := "routines carry a header comment"

def classFileName : RuleSpec where
  id := .classFileName
  family := "class-file-name"
  severity := .warning
  description := "the class name matches the file name"
  settings := [("extension", .text extension)]

def agentForm : RuleSpec where
  id := .agentForm
  family := "agent"
  severity := .error
  description := "open-argument markers stand alone; all-open agents use the shorthand (warning)"
  settings := [("all_open_severity", .severity allOpenSeverity)]

def quantifierForm : RuleSpec where
  id := .quantifierForm
  family := "quantifier"
  severity := .error
  description := "symbolic quantifiers have a cursor, a ':' and a '¦'"

/-- The selectable rules. -/
def rules : List RuleSpec :=
  [naming, contractPresence, assertionLabeling, attachment, commandQuery, onceClass,
   invalidEscape, featureClause, tabExpected, trailingWhitespace, headerComment, classFileName,
   agentForm, quantifierForm]

/-- The rules that are always on. -/
def alwaysOn : List RuleSpec :=
  [{ id := .syntaxError, family := "core", severity := .error,
     description := "the class text parses" },
   { id := .ioError, family := "core", severity := .error,
     description := "the source file can be read" },
   { id := .internalError, family := "core", severity := .error,
     description := "a rule checker failed" }]

/-- The families of the selectable rules, each once. -/
def families : List String :=
  (rules.map RuleSpec.family).eraseDups

/-- The entry of a rule. -/
def find? (id : RuleId) : Option RuleSpec :=
  (rules ++ alwaysOn).find? (·.id == id)

/-- The parameter of a rule. -/
def setting? (r : RuleSpec) (name : String) : Option Setting :=
  r.settings.lookup name

/-- Whether a rule is always on. -/
def isAlwaysOn (id : RuleId) : Bool :=
  alwaysOn.any (·.id == id)

/-! ## 3. Selections -/

/-- Every selectable rule. -/
def everyRule : List RuleId :=
  rules.map RuleSpec.id

/-- Whether a lower-case name stands for a rule: it is its identifier or its family. -/
def isNamed (r : RuleSpec) (name : String) : Bool :=
  name == r.id || name == r.family

/-- Whether a lower-case name stands for anything in the rulebook. -/
def isKnown (name : String) : Bool :=
  isAlwaysOn name || rules.any (isNamed · name)

/-- The rules that a list of names selects, in any letter case and with blanks around them.  No
list, or one without names, selects every rule. -/
def resolve (names : Option (List String)) : Except ConfigError (List RuleId) :=
  let wanted := ((names.getD []).map Text.trim).filter (· != "")
  if wanted.isEmpty then .ok everyRule
  else
    let unknown := wanted.filter fun name => !isKnown (Text.lower name)
    if unknown.isEmpty then
      .ok ((rules.filter fun r => wanted.any fun name => isNamed r (Text.lower name)).map
        RuleSpec.id)
    else .error (.unknownRules unknown)

/-- The listing of all rules. -/
def listing : String :=
  "\n".intercalate
    ([s!"eiflint rulebook {version}", ""] ++ rules.map RuleSpec.describe ++ [""] ++
      alwaysOn.map RuleSpec.describe)

end Rulebook

end ContractLint
