/-
# Usage

The texts that explain the command line, and the complaints about one that cannot be understood.
-/
import ContractLint.Command.Option

namespace ContractLint.Command

/-- The version of the program. -/
def programVersion : String := "1.0.0"

/-- The line that names the program's version. -/
def versionLine : String :=
  s!"eiflint {programVersion} (rulebook {Rulebook.version})\n"

/-- The short reminder of the options. -/
def usage : String :=
  "usage: eiflint [-h] [--version] [-v] [--rules LIST] [-f \x7btext,json\x7d]\n" ++
  "               [--severity-threshold \x7berror,warning\x7d] [-o FILE] [-j N]\n" ++
  "               [--no-color] [--list-rules] [--dump-tree]\n" ++
  "               [PATH ...]\n"

/-- What the program is for. -/
def description : String :=
  "eiflint — conformance checker for contract-driven class texts.\n\n" ++
  "Reports naming, layout, contract, attachment and construct-form\n" ++
  s!"violations against rulebook {Rulebook.version}.\n"

/-- What each argument means. -/
def argumentHelp : String :=
  "positional arguments:\n" ++
  "  PATH                  Source files or directories (searched recursively for\n" ++
  "                        *.e).\n\n" ++
  "options:\n" ++
  "  -h, --help            show this help message and exit\n" ++
  "  --version             show program's version number and exit\n" ++
  "  -v, --verbose         Increase verbosity (-v info, -vv debug).\n" ++
  "  --rules LIST          Comma-separated rule families or rule ids (default:\n" ++
  "                        all).\n" ++
  "  -f \x7btext,json\x7d, --format \x7btext,json\x7d\n" ++
  "                        Report format (default: text).\n" ++
  "  --severity-threshold \x7berror,warning\x7d\n" ++
  "                        Lowest severity that fails the run (default: error).\n" ++
  "  -o FILE, --output FILE\n" ++
  "                        Report file (\"-\" or omit for stdout).\n" ++
  "  -j N, --jobs N        Worker threads for batch analysis (default:\n" ++
  "                        $EIFLINT_JOBS or 1).\n" ++
  "  --no-color            Never colour the text report (also: NO_COLOR=1).\n" ++
  "  --list-rules          Print the rulebook and exit.\n" ++
  "  --dump-tree           Print each file's syntax tree as an S-expression\n" ++
  "                        instead of the report.\n"

/-- How the program may be called. -/
def callExamples : String :=
  "examples:\n" ++
  "  eiflint person.e\n" ++
  "  eiflint src/ --rules naming,layout --format json\n" ++
  "  eiflint src/ --severity-threshold warning --jobs 4\n"

/-- The long explanation of the command line. -/
def help : String :=
  "\n".intercalate [usage, description, argumentHelp, callExamples]

/-- Why a command line cannot be understood. -/
inductive UsageError where
  /-- The beginning of more than one option. -/
  | ambiguous (word : String) (matching : List String)
  /-- A value for an option that takes none. -/
  | ignoredValue (switch : Switch) (value : String)
  /-- No value for an option that takes one. -/
  | missingValue (switch : Switch)
  | notInteger (switch : Switch) (value : String)
  | invalidChoice (switch : Switch) (value : String)
  /-- Words that are neither options nor paths. -/
  | unrecognized (words : List String)
deriving DecidableEq, Repr, Inhabited

/-- A complaint about an option's value. -/
def aboutSwitch (s : Switch) (complaint : String) : String :=
  s!"argument {s.shown}: {complaint}"

/-- The wording of an error. -/
def UsageError.message : UsageError → String
  | ambiguous word matching =>
    let listed := ", ".intercalate matching
    s!"ambiguous option: {word} could match {listed}"
  | ignoredValue switch value => aboutSwitch switch ("ignored explicit argument " ++ Text.quoted value)
  | missingValue switch => aboutSwitch switch "expected one argument"
  | notInteger switch value => aboutSwitch switch ("invalid int value: " ++ Text.quoted value)
  | invalidChoice switch value =>
    let shown := Text.quoted value
    let listed := ", ".intercalate ((switch.choices.getD []).map Text.quoted)
    aboutSwitch switch s!"invalid choice: {shown} (choose from {listed})"
  | unrecognized words =>
    let listed := " ".intercalate words
    s!"unrecognized arguments: {listed}"

/-- What is shown to somebody whose command line cannot be understood. -/
def UsageError.render (e : UsageError) : String :=
  usage ++ s!"eiflint: error: {e.message}\n"

end ContractLint.Command
