/-
# Log lines

What a run tells about its own work, beside its report.  A line has a level, the part of the
program that speaks, and a message; a run shows the lines from some level on.
-/

namespace ContractLint

/-- How much a log line matters. -/
inductive LogLevel where
  | debug
  | info
  | warning
  | error
deriving DecidableEq, Repr, Inhabited

namespace LogLevel

/-- The weight of a level. -/
def rank : LogLevel → Nat
  | debug => 0
  | info => 1
  | warning => 2
  | error => 3

/-- The level's name in log lines, in five characters. -/
def label : LogLevel → String
  | debug => "DEBUG"
  | info => "INFO "
  | warning => "WARNI"
  | error => "ERROR"

/-- The lowest level that is shown when more talk is asked for so many times. -/
def ofVerbosity : Nat → LogLevel
  | 0 => warning
  | 1 => info
  | _ => debug

end LogLevel

/-- The parts of the program that write log lines. -/
inductive Speaker where
  | program
  | lexer
  | parser
  | checkers
  | pipeline
deriving DecidableEq, Repr, Inhabited

/-- The speaker's name in log lines. -/
def Speaker.label : Speaker → String
  | program => "eiflint"
  | lexer => "eiflint.lexer"
  | parser => "eiflint.parser"
  | checkers => "eiflint.checkers"
  | pipeline => "eiflint.pipeline"

/-- A line of the log. -/
structure LogLine where
  level : LogLevel
  speaker : Speaker
  message : String
deriving DecidableEq, Repr, Inhabited

namespace LogLine

/-- Whether the line is shown from a level on. -/
def isShown (lowest : LogLevel) (l : LogLine) : Bool :=
  lowest.rank ≤ l.level.rank

/-- The line as it is written at a time of day. -/
def render (clock : String) (l : LogLine) : String :=
  s!"{clock} [{l.level.label}] {l.speaker.label}: {l.message}\n"

end LogLine

end ContractLint
