/-
# Options of the command line

An option has a long spelling with two dashes, and some have a short one with one dash and one
letter.  Some options take a value.
-/
import ContractLint.Settings

namespace ContractLint.Command

/-- An option of the command line. -/
inductive Switch where
  | help
  | version
  | verbose
  | rules
  | format
  | threshold
  | output
  | jobs
  | noColor
  | listRules
  | dumpTree
deriving DecidableEq, Repr, Inhabited

namespace Switch

/-- All options, in the order in which usage texts list them. -/
def all : List Switch :=
  [help, version, verbose, rules, format, threshold, output, jobs, noColor, listRules, dumpTree]

/-- The spellings of an option, the short one first. -/
def spellings : Switch → List String
  | help => ["-h", "--help"]
  | version => ["--version"]
  | verbose => ["-v", "--verbose"]
  | rules => ["--rules"]
  | format => ["-f", "--format"]
  | threshold => ["--severity-threshold"]
  | output => ["-o", "--output"]
  | jobs => ["-j", "--jobs"]
  | noColor => ["--no-color"]
  | listRules => ["--list-rules"]
  | dumpTree => ["--dump-tree"]

/-- Whether the option takes a value. -/
def takesValue : Switch → Bool
  | rules | format | threshold | output | jobs => true
  | _ => false

/-- The texts that may be the option's value, if they are limited. -/
def choices : Switch → Option (List String)
  | format => some ["text", "json"]
  | threshold => some ["error", "warning"]
  | _ => none

/-- Whether a text may be the option's value. -/
def admits (s : Switch) (text : String) : Bool :=
  (s.choices.map (·.contains text)).getD true

/-- How messages name the option. -/
def shown (s : Switch) : String :=
  "/".intercalate s.spellings

/-- Every spelling with its option. -/
def table : List (String × Switch) :=
  all.flatMap fun s => s.spellings.map fun spelling => (spelling, s)

/-- The option with a spelling. -/
def ofSpelling? (spelling : String) : Option Switch :=
  table.lookup spelling

end Switch

end ContractLint.Command
