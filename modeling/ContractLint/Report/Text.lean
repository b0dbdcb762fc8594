/-
# Text reports

One line for each finding: place, severity, rule and message.  On a terminal the place and the
severity are bold, the severity has its colour, and the rule is dimmed.
-/
import ContractLint.Diagnostic

namespace ContractLint.Report

/-- A way to show text on a terminal. -/
inductive Style where
  | bold
  | dim
  | red
  | yellow
deriving DecidableEq, Repr, Inhabited

/-- The style of a severity. -/
def severityStyle : Severity → Style
  | .error => .red
  | .warning => .yellow

/-- What shows a text in some styles, the outermost first.  Reports leave this to the terminal's
library and only say which styles they want. -/
abbrev Painter := List Style → String → String

section

variable (paint : Painter)

/-- A finding as a line for a terminal. -/
def coloredLine (d : Diagnostic) : String :=
  " ".intercalate
    [paint [.bold] d.place, paint [.bold, severityStyle d.severity] d.severity.label,
     paint [.dim] s!"[{d.rule}]", d.message]

/-- A finding as a line of the report. -/
def textLine (color : Bool) (d : Diagnostic) : String :=
  if color then coloredLine paint d else d.toText

/-- The text report. -/
def text (color : Bool) (ds : List Diagnostic) : String :=
  String.join (ds.map fun d => textLine paint color d ++ "\n")

end

/-! ## Terminal sequences -/

/-- The number of a style in terminal sequences. -/
def Style.code : Style → Nat
  | bold => 1
  | dim => 2
  | red => 31
  | yellow => 33

/-- The terminal sequence with a number. -/
def sequence (code : Nat) : String :=
  s!"\x1b[{code}m"

/-- The painter of terminals that know sequences: each style is switched on in front of the text, and
all are switched off behind it. -/
def ansi : Painter := fun styles s =>
  String.join (styles.map fun style => sequence style.code) ++ s ++ sequence 0

end ContractLint.Report
