/-
# Batches

The analysis of many files.  Each file has a report of its own, and the batch lists them in the
order of the files.

The analysis of a file may BREAK OFF, and then nothing comes of it; a batch goes on all the same, with
a report of the internal error in place of the missing one.  This is done twice: once where files are
taken one after the other (`oneByOne`), and once where workers share them (`byWorkers`).  Workers
finish in any order, so what they deliver, or the error they broke off with, is kept under the index
of the file and put in order at the end.
-/
import ContractLint.Analysis
import ContractLint.File.Discovery

namespace ContractLint

/-! ## 1. One file -/

/-- Why the analysis of a file breaks off. -/
inductive Crash where
  /-- The path holds a NUL, so there is nothing to look up. -/
  | nulInPath
  /-- A number in an escape of the text cannot be converted. -/
  | conversion (fault : ConversionFault)
deriving DecidableEq, Repr, Inhabited

/-- The wording of a crash. -/
def Crash.message : Crash → String
  | nulInPath => "embedded null byte"
  | conversion fault => fault.message

/-- Why there is no analysis of a file. -/
inductive FileFault where
  /-- The file cannot be read. -/
  | unreadable (failure : ReadFailure)
  /-- The analysis broke off. -/
  | crashed (crash : Crash)
deriving DecidableEq, Repr, Inhabited

/-- What came of a file. -/
structure FileReport where
  path : String
  diagnostics : List Diagnostic
  verdict : Verdict
  tree : Option Tree := none
  unreadable : Bool := false
  suppressed : Nat := 0
deriving Repr, Inhabited

/-- The finding about a file that cannot be read. -/
def ReadFailure.diagnostic (failure : ReadFailure) (path : String) : Diagnostic :=
  { rule := .ioError, severity := .error
    message := s!"cannot read source file: {failure.message}", path := path }

/-- The finding about a file whose analysis broke off. -/
def Crash.diagnostic (crash : Crash) (path : String) : Diagnostic :=
  { rule := .internalError, severity := .error
    message := s!"analysis failed: {crash.message}", path := path }

namespace FileFault

/-- The report of a file without an analysis. -/
def report (path : String) : FileFault → FileReport
  | unreadable failure =>
    { path := path, diagnostics := [failure.diagnostic path], verdict := .fail, unreadable := true }
  | crashed crash => { path := path, diagnostics := [crash.diagnostic path], verdict := .fail }

/-- What the log says about a file without an analysis.  Only a file that was read had its analysis
announced. -/
def log (path : String) : FileFault → List LogLine
  | unreadable failure => [⟨.warning, .pipeline, s!"{path}: {failure.message}"⟩]
  | crashed .nulInPath => [⟨.error, .pipeline, s!"{path}: analysis crashed"⟩]
  | crashed (.conversion _) =>
    [⟨.info, .pipeline, s!"analysing {path}"⟩, ⟨.error, .pipeline, s!"{path}: analysis crashed"⟩]

end FileFault

namespace Analysis

/-- The report of an analysed file. -/
def report (a : Analysis) : FileReport :=
  { path := a.path
    diagnostics := a.collected.diagnostics
    verdict := a.collected.verdict
    tree := some a.parsed.tree
    suppressed := a.collected.suppressed }

end Analysis

/-- A file of a batch: its path, and its analysis unless there is none. -/
structure Examined where
  path : String
  outcome : Except FileFault Analysis

namespace Examined

/-- The file at a path, read and analysed.  A file that cannot be read is examined all the same; a
crash leaves nothing. -/
def ofPath? (t : FileTree) (policy : Policy) (path : String) : Except Crash Examined :=
  if Path.hasNul path then .error .nulInPath
  else
    match t.readText path with
    | .error failure => .ok ⟨path, .error (.unreadable failure)⟩
    | .ok text =>
      match (Source.ofString text path).analyse? policy with
      | .ok analysis => .ok ⟨path, .ok analysis⟩
      | .error fault => .error (.conversion fault)

/-- What takes the place of a file whose analysis broke off. -/
def ofCrash (path : String) (crash : Crash) : Examined :=
  ⟨path, .error (.crashed crash)⟩

/-- The report of the file. -/
def report (e : Examined) : FileReport :=
  match e.outcome with
  | .ok analysis => analysis.report
  | .error fault => fault.report e.path

/-- What the log says about the file. -/
def log (timing : String) (e : Examined) : List LogLine :=
  match e.outcome with
  | .ok analysis => ⟨.info, .pipeline, s!"analysing {e.path}"⟩ :: analysis.log timing
  | .error fault => fault.log e.path

end Examined

/-! ## 2. Many files -/

section Schedules

variable {α ε : Type} (examine : String → Except ε α) (crashed : String → ε → α)

/-- The files one after the other.  An examination that breaks off is handled before the next one
starts. -/
def oneByOne : List String → List α
  | [] => []
  | path :: paths =>
    match examine path with
    | .ok result => result :: oneByOne paths
    | .error e => crashed path e :: oneByOne paths

/-- What a worker hands over who is done with the file at an index: its result, or, where the
examination broke off, what stands in for the file that the index names. -/
def collect (files : List String) (index : Nat) : Option (Nat × α) :=
  match files[index]? with
  | none => none
  | some path =>
    match examine path with
    | .ok result => some (index, result)
    | .error e => some (index, crashed path e)

/-- The files as workers examine them who finish the indices in the given order: what they hand over
is kept under the index, and put in the order of the files at the end. -/
def byWorkers (order : List Nat) (files : List String) : List α :=
  let results := order.filterMap (collect examine crashed files)
  (List.range files.length).filterMap fun index => results.lookup index

end Schedules

/-- Whether so many workers share so many files. -/
def isShared (jobs files : Nat) : Bool :=
  1 < jobs && 1 < files

/-- What came of a batch. -/
structure BatchReport where
  files : List FileReport
  threshold : Severity
deriving Repr, Inhabited

namespace BatchReport

/-- The findings of all files. -/
def diagnostics (b : BatchReport) : List Diagnostic :=
  b.files.flatMap FileReport.diagnostics

/-- The verdict on all findings. -/
def verdict (b : BatchReport) : Verdict :=
  .ofFindings b.threshold b.diagnostics

/-- Whether some file could not be read. -/
def anyUnreadable (b : BatchReport) : Bool :=
  b.files.any FileReport.unreadable

end BatchReport

/-- A batch: its files as they were examined, the number of workers, and the policy. -/
structure Batch where
  files : List Examined
  jobs : Nat
  policy : Policy

namespace Batch

/-- The files that the paths stand for, examined one after the other or, if there are workers to
share them, by workers who finish in the given order of indices. -/
def run (t : FileTree) (policy : Policy) (jobs : Nat) (order : List Nat) (paths : List String) :
    Batch :=
  let files := t.discover paths
  let examine := Examined.ofPath? t policy
  { files :=
      if isShared jobs files.length then byWorkers examine Examined.ofCrash order files
      else oneByOne examine Examined.ofCrash files
    jobs := jobs
    policy := policy }

/-- The files examined, where workers finish in the order of the files. -/
def ofPaths (t : FileTree) (policy : Policy) (jobs : Nat) (paths : List String) : Batch :=
  run t policy jobs (List.range (t.discover paths).length) paths

/-- The report of the batch. -/
def report (b : Batch) : BatchReport :=
  ⟨b.files.map Examined.report, b.policy.threshold⟩

/-- What the log says about the batch. -/
def log (timing : String) (b : Batch) : List LogLine :=
  b.files.flatMap (Examined.log timing) ++
    if isShared b.jobs b.files.length then
      let n := b.files.length
      [⟨.info, .pipeline, s!"analysed {n} files with {b.jobs} workers"⟩]
    else []

end Batch

end ContractLint
