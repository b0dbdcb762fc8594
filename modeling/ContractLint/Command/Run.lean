/-
# Runs of the command

What the command does, as a function of its words, the files it can see, the environment and the
terminal.  A run answers with an exit code, what it writes to the two standard streams, and the
file it writes, if any.  The exit code is 2 when the command line or a file cannot be read, 1 when
the verdict on the batch is a failure, and 0 otherwise.  A run whose words drop a value that it needs
breaks off and leaves nothing behind.
-/
import ContractLint.Batch
import ContractLint.Command.Destination
import ContractLint.Command.Encoding
import ContractLint.Command.Invocation
import ContractLint.Tree.Dump

namespace ContractLint.Command

/-- What a run can see besides its words. -/
structure Surroundings where
  files : FileTree := {}
  environment : Environment := []
  /-- Whether the standard output is a terminal. -/
  terminal : Bool := false
  /-- The time of day that log lines show. -/
  clock : String := "00:00:00"
  /-- The time that log lines show for each checker. -/
  timing : String := "0.0ms"
deriving DecidableEq, Repr, Inhabited

/-- What a run leaves behind. -/
structure Outcome where
  exitCode : Nat
  stdout : String := ""
  stderr : String := ""
  written : Option (Names × String) := none
deriving DecidableEq, Repr, Inhabited

/-- The exit code of a run that was done. -/
def exitCodeFor (b : BatchReport) : Nat :=
  if b.anyUnreadable then 2 else if b.verdict.passed then 0 else 1

/-- The exit code of a run that could not be done. -/
def exitInfrastructure : Nat := 2

/-- Log lines as a run shows them that was asked for more talk so many times. -/
def showLog (w : Surroundings) (verbosity : Nat) (lines : List LogLine) : String :=
  let shown := lines.filter (·.isShown (.ofVerbosity verbosity))
  String.join (shown.map (·.render w.clock))

/-- An error that the command itself reports. -/
def errorLine (message : String) : LogLine :=
  ⟨.error, .program, message⟩

/-- The pieces of output that dump the trees of a batch. -/
def treePieces (b : BatchReport) : List (List CodePoint) :=
  (b.files.filterMap FileReport.tree).map fun tree => tree.dump ++ CodePoint.ofString "\n"

/-- The pieces of output of a batch: its trees or its report. -/
def outputPieces (w : Surroundings) (settings : Settings) (destination : Destination)
    (b : BatchReport) : List (List CodePoint) :=
  if settings.dumpTree then treePieces b
  else
    let terminal := w.terminal && destination = .standard
    let color := Report.useColor w.environment settings.color terminal
    [CodePoint.ofString (Report.render settings.format color b.diagnostics)]

/-- The line that sums a batch up, unless trees were asked for. -/
def closingLine (settings : Settings) (b : BatchReport) : String :=
  if settings.dumpTree then ""
  else { Tally.ofFindings b.diagnostics with files := b.files.length }.summary ++ "\n"

/-- The run that settings ask for. -/
def runSettings (w : Surroundings) (verbosity : Nat) (settings : Settings) : Outcome :=
  let batch := Batch.ofPaths w.files ⟨settings.rules, settings.threshold⟩ settings.jobs settings.paths
  let report := batch.report
  let log := batch.log w.timing
  match Destination.ofPath w.files w.environment settings.output with
  | .error fault =>
    let message := match settings.output with
      | some (.value asked) =>
        if fault.isRefusal then s!"cannot open output {asked}: {fault.message}"
        else s!"Unhandled exception: {fault.message}"
      | _ => s!"Unhandled exception: {fault.message}"
    { exitCode := exitInfrastructure
      stderr := showLog w verbosity (log ++ [errorLine message]) }
  | .ok destination =>
    let (text, fault) := encodeAll (outputPieces w settings destination report)
    let (stdout, written) := match destination with
      | .standard => (text, none)
      | .file names => ("", some (names, text))
    match fault with
    | some fault =>
      { exitCode := exitInfrastructure, stdout := stdout, written := written
        stderr := showLog w verbosity
          (log ++ [errorLine s!"Unhandled exception: {fault.message}"]) }
    | none =>
      { exitCode := exitCodeFor report, stdout := stdout, written := written
        stderr := showLog w verbosity log ++ closingLine settings report }

/-- The run that an invocation asks for, or the gap at which it breaks off. -/
def runInvocation (w : Surroundings) (i : Invocation) : Except Gap Outcome :=
  if i.listRules then .ok { exitCode := 0, stdout := Rulebook.listing ++ "\n" }
  else if i.request.paths.isEmpty then
    .ok { exitCode := exitInfrastructure
          stderr := usage ++ showLog w i.verbosity [errorLine "no input paths given"] }
  else
    match Settings.ofRequest i.request w.environment with
    | .error (.broken gap) => .error gap
    | .error (.refused e) =>
      .ok { exitCode := exitInfrastructure
            stderr := showLog w i.verbosity [errorLine e.message] }
    | .ok settings => .ok (runSettings w i.verbosity settings)

/-- The run of the command with these words, or the gap at which it breaks off. -/
def run (w : Surroundings) (words : List String) : Except Gap Outcome :=
  match Invocation.ofWords words with
  | .ok invocation => runInvocation w invocation
  | .error .help => .ok { exitCode := 0, stdout := help }
  | .error .version => .ok { exitCode := 0, stdout := versionLine }
  | .error (.misuse e) => .ok { exitCode := exitInfrastructure, stderr := e.render }

end ContractLint.Command
