/-
# Batches and their schedules

Workers finish the files of a batch in an order that nobody controls, some of them with an error in
place of a result, and the report is put together from what they hand over under the index of each
file.  Nothing is lost or misplaced on the way as long as every index comes up (`byWorkers_eq`), and
the error of a file is handled as it is where files are taken one after the other
(`oneByOne_eq`).  Both are stated for ANY examination of files and any way to handle its errors.

For the examination that batches run, `Reported` says what the report of a file can be: what the
analysis found, that the file cannot be read, or that the analysis broke off.

The verdict on a batch is drawn from the findings of all files at once and not from the files' own
verdicts.  Both agree because every file's verdict is the one on its findings (`Reported.verdict_eq`),
also where there was no analysis: such a report holds one error, and an error meets every threshold.

* `batch_ignores_schedule`: the reports, the verdict and the exit code of a batch that workers share.
-/
import ContractLint.Command.Run
import Mathlib

namespace ContractLint

/-! ## 1. Examining files -/

section Schedules

variable {α ε : Type} (examine : String → Except ε α) (crashed : String → ε → α)

/-- What an examination leaves of a file once its error is handled. -/
def settled (path : String) : α :=
  match examine path with
  | .ok result => result
  | .error e => crashed path e

theorem settled_cases (path : String) :
    examine path = .ok (settled examine crashed path) ∨
      ∃ e, examine path = .error e ∧ settled examine crashed path = crashed path e := by
  unfold settled
  cases examine path with
  | ok result => exact .inl rfl
  | error e => exact .inr ⟨e, rfl, rfl⟩

/-- **One after the other**, every file is settled, in the order of the files. -/
theorem oneByOne_eq : ∀ files : List String,
    oneByOne examine crashed files = files.map (settled examine crashed)
  | [] => rfl
  | path :: paths => by
    rw [oneByOne, List.map_cons, oneByOne_eq paths, settled]
    cases examine path <;> rfl

/-- What is handed over for an index is what settles the file there. -/
theorem collect_eq (files : List String) (index : Nat) :
    collect examine crashed files index =
      files[index]?.map fun path => (index, settled examine crashed path) := by
  unfold collect
  cases files[index]? with
  | none => rfl
  | some path =>
    rw [Option.map_some, settled]
    dsimp only
    cases examine path <;> rfl

/-- What is kept for an index that came up settles the file of that index. -/
theorem lookup_collected {order : List Nat} {files : List String} {i : Nat} {path : String}
    (hpath : files[i]? = some path) (h : i ∈ order) :
    (order.filterMap (collect examine crashed files)).lookup i =
      some (settled examine crashed path) := by
  induction order with
  | nil => cases h
  | cons k order ih =>
    rw [List.filterMap_cons, collect_eq]
    by_cases hk : i = k
    · subst hk
      rw [hpath]
      exact List.lookup_cons_self
    · have hlater := ih ((List.mem_cons.mp h).resolve_left hk)
      cases files[k]? with
      | none => exact hlater
      | some other =>
        simp only [Option.map_some, List.lookup_cons, beq_eq_false_iff_ne.mpr hk]
        exact hlater

/-- **By workers who finish every file**, in whatever order, the files are settled in theirs. -/
theorem byWorkers_eq {order : List Nat} {files : List String} (h : ∀ i < files.length, i ∈ order) :
    byWorkers examine crashed order files = files.map (settled examine crashed) := by
  generalize hcollected : order.filterMap (collect examine crashed files) = collected
  have hlookups : (List.range files.length).map (fun i => collected.lookup i) =
      (files.map (settled examine crashed)).map some := by
    refine List.ext_getElem (by simp) fun i _ hi => ?_
    rw [List.length_map, List.length_map] at hi
    rw [List.getElem_map, List.getElem_map, List.getElem_map, List.getElem_range, ← hcollected]
    exact lookup_collected examine crashed (List.getElem?_eq_getElem hi) (h i hi)
  calc byWorkers examine crashed order files
      = ((List.range files.length).map (fun i => collected.lookup i)).filterMap id := by
        rw [byWorkers, hcollected, List.filterMap_map]
        rfl
    _ = files.map (settled examine crashed) := by
        rw [hlookups, List.filterMap_map]
        exact List.filterMap_some

end Schedules

/-! ## 2. The report of a file -/

/-- The report of a file that cannot be read: one error, without a place. -/
def ioErrorReport (path cause : String) : FileReport where
  path := path
  diagnostics :=
    [{ rule := .ioError
       severity := .error
       message := "cannot read source file: " ++ cause
       location := ⟨0, 0, 0⟩
       fix := none
       path := path }]
  verdict := .fail
  tree := none
  unreadable := true
  suppressed := 0

/-- The report of a file whose analysis broke off: one error, without a place.  Such a file does not
count as unreadable. -/
def internalErrorReport (path cause : String) : FileReport where
  path := path
  diagnostics :=
    [{ rule := .internalError
       severity := .error
       message := "analysis failed: " ++ cause
       location := ⟨0, 0, 0⟩
       fix := none
       path := path }]
  verdict := .fail
  tree := none
  unreadable := false
  suppressed := 0

/-- `Reported t policy path f`: the report `f` says what came of the file at `path`. -/
inductive Reported (t : FileTree) (policy : Policy) (path : String) : FileReport → Prop
  | analysed {text : String} {a : Analysis} (hpath : Path.hasNul path = false)
      (hread : t.readText path = .ok text)
      (ha : (Source.ofString text path).analyse? policy = .ok a) :
      Reported t policy path
        { path := path
          diagnostics := a.collected.diagnostics
          verdict := .ofFindings policy.threshold a.collected.diagnostics
          tree := some a.parsed.tree
          unreadable := false
          suppressed := a.collected.suppressed }
  | unreadable {failure : ReadFailure} (hpath : Path.hasNul path = false)
      (hread : t.readText path = .error failure) :
      Reported t policy path (ioErrorReport path failure.message)
  | nulInPath (hpath : Path.hasNul path = true) :
      Reported t policy path (internalErrorReport path "embedded null byte")
  | crashed {text : String} {fault : ConversionFault} (hpath : Path.hasNul path = false)
      (hread : t.readText path = .ok text)
      (hfault : (Source.ofString text path).analyse? policy = .error fault) :
      Reported t policy path (internalErrorReport path fault.message)

/-- What comes of an analysis that does not break off. -/
theorem Source.analyse?_eq_ok {s : Source} {policy : Policy} {a : Analysis}
    (h : s.analyse? policy = .ok a) : a = s.analyse policy := by
  unfold analyse? lex? at h
  split at h
  · cases h
  · exact (Except.ok.inj h).symm

/-- **The report of a file says what came of it**, and every file has one. -/
theorem reported_settled (t : FileTree) (policy : Policy) (path : String) :
    Reported t policy path
      (settled (Examined.ofPath? t policy) Examined.ofCrash path).report := by
  unfold settled Examined.ofPath?
  cases hpath : Path.hasNul path with
  | true => exact .nulInPath hpath
  | false =>
    cases hread : t.readText path with
    | error failure => exact .unreadable hpath hread
    | ok text =>
      dsimp only
      cases ha : (Source.ofString text path).analyse? policy with
      | error fault => exact .crashed hpath hread ha
      | ok a =>
        have hreported := Reported.analysed hpath hread ha
        rw [Source.analyse?_eq_ok ha] at hreported ⊢
        exact hreported

/-- An error meets every threshold. -/
theorem Severity.error_atLeast (threshold : Severity) : error.atLeast threshold = true := by
  cases threshold <;> rfl

/-- One error is enough to fail. -/
theorem Verdict.ofFindings_singleton {d : Diagnostic} (h : d.severity = .error)
    (threshold : Severity) : ofFindings threshold [d] = .fail :=
  ofFindings_eq_fail_iff.mpr
    ⟨d, List.mem_singleton_self d, h ▸ Severity.error_atLeast threshold⟩

namespace Reported

variable {t : FileTree} {policy : Policy} {path : String} {f : FileReport}

theorem path_eq (h : Reported t policy path f) : f.path = path := by
  cases h <;> rfl

/-- The only report on a path that no file can have. -/
theorem eq_of_hasNul (h : Reported t policy path f) (hpath : Path.hasNul path = true) :
    f = internalErrorReport path "embedded null byte" := by
  cases h with
  | nulInPath => rfl
  | analysed hnot | unreadable hnot | crashed hnot => simp [hpath] at hnot

/-- **The verdict on a file is the verdict on its findings**, whether or not there is an analysis. -/
theorem verdict_eq (h : Reported t policy path f) :
    f.verdict = .ofFindings policy.threshold f.diagnostics := by
  cases h with
  | analysed => rfl
  | unreadable | nulInPath | crashed => exact (Verdict.ofFindings_singleton rfl _).symm

/-- A file counts as unreadable when reading it fails. -/
theorem unreadable_iff (h : Reported t policy path f) : f.unreadable = true ↔
    Path.hasNul path = false ∧ ∃ failure, t.readText path = .error failure := by
  cases h with
  | analysed hpath hread => simp [hread]
  | unreadable hpath hread => simp [ioErrorReport, hpath, hread]
  | nulInPath hpath => simp [internalErrorReport, hpath]
  | crashed hpath hread => simp [internalErrorReport, hread]

end Reported

/-! ## 3. The report of a batch -/

/-- The verdict on a batch fails if one file's does, where the files' verdicts are those on their
findings. -/
theorem BatchReport.verdict_eq_fail_iff {b : BatchReport}
    (h : ∀ f ∈ b.files, f.verdict = .ofFindings b.threshold f.diagnostics) :
    b.verdict = .fail ↔ ∃ f ∈ b.files, f.verdict = .fail := by
  rw [verdict, Verdict.ofFindings_eq_fail_iff]
  constructor
  · rintro ⟨d, hd, hweight⟩
    obtain ⟨f, hf, hd⟩ := List.mem_flatMap.mp hd
    exact ⟨f, hf, (h f hf).trans (Verdict.ofFindings_eq_fail_iff.mpr ⟨d, hd, hweight⟩)⟩
  · rintro ⟨f, hf, hfail⟩
    obtain ⟨d, hd, hweight⟩ := Verdict.ofFindings_eq_fail_iff.mp ((h f hf).symm.trans hfail)
    exact ⟨d, List.mem_flatMap.mpr ⟨f, hf, hd⟩, hweight⟩

/-- **A batch reports on the files one by one**, whoever examines them. -/
theorem Batch.report_run (t : FileTree) (policy : Policy) (paths : List String) (jobs : Nat)
    (order : List Nat)
    (h : isShared jobs (t.discover paths).length = true →
      order.Perm (List.range (t.discover paths).length)) :
    (run t policy jobs order paths).report =
      ⟨(t.discover paths).map fun path =>
        (settled (Examined.ofPath? t policy) Examined.ofCrash path).report, policy.threshold⟩ := by
  have hfiles : (run t policy jobs order paths).files =
      (t.discover paths).map (settled (Examined.ofPath? t policy) Examined.ofCrash) := by
    unfold run
    dsimp only
    split
    · rename_i hshared
      exact byWorkers_eq _ _ fun i hi => (h hshared).mem_iff.mpr (List.mem_range.mpr hi)
    · exact oneByOne_eq _ _ _
  rw [report, hfiles, List.map_map]
  rfl

/-- The exit code tells what became of the batch. -/
theorem Command.exitCodeFor_iff (b : BatchReport) :
    (exitCodeFor b = 2 ↔ b.anyUnreadable = true) ∧
      (exitCodeFor b = 1 ↔ ¬ b.anyUnreadable = true ∧ b.verdict = .fail) ∧
      (exitCodeFor b = 0 ↔ ¬ b.anyUnreadable = true ∧ ¬ b.verdict = .fail) := by
  unfold exitCodeFor Verdict.passed
  cases b.anyUnreadable <;> cases b.verdict <;> decide

/-- **Batches do not depend on their schedule.**  However files are examined and whatever stands in
for an examination that breaks off, workers who finish in any order deliver what is had one after the
other: the result for each file, or what stands in for it, in the order of the files.

So whatever the number of workers and the order in which they finish, a batch has the report of a run
without workers.  It has one report for each file, in the order of the files: what the analysis found,
or the error that the file cannot be read, or, where the analysis broke off, its internal error.  The
batch fails if the verdict on one of the files is a failure, and the exit code is 2 if a file cannot be
read, else 1 if the verdict on a file is a failure, else 0. -/
theorem batch_ignores_schedule (t : FileTree) (policy : Policy) (paths : List String) (jobs : Nat)
    {order : List Nat} (horder : order.Perm (List.range (t.discover paths).length)) :
    let files := t.discover paths
    let b := (Batch.run t policy jobs order paths).report
    let failsToRead := ∃ path ∈ files,
      Path.hasNul path = false ∧ ∃ failure, t.readText path = .error failure
    let fails := ∃ f ∈ b.files, f.verdict = .fail
    (∀ {α ε : Type} (examine : String → Except ε α) (crashed : String → ε → α),
      byWorkers examine crashed order files = oneByOne examine crashed files ∧
      List.Forall₂
        (fun path result =>
          examine path = .ok result ∨ ∃ e, examine path = .error e ∧ result = crashed path e)
        files (oneByOne examine crashed files)) ∧
      b = (Batch.run t policy 1 [] paths).report ∧
      b.files.map FileReport.path = files ∧
      (∀ f ∈ b.files, Reported t policy f.path f) ∧
      (b.verdict = .fail ↔ fails) ∧
      (Command.exitCodeFor b = 2 ↔ failsToRead) ∧
      (Command.exitCodeFor b = 1 ↔ ¬ failsToRead ∧ fails) ∧
      (Command.exitCodeFor b = 0 ↔ ¬ failsToRead ∧ ¬ fails) := by
  intro files b failsToRead fails
  have hb := Batch.report_run t policy paths jobs order fun _ => horder
  have hserial := Batch.report_run t policy paths 1 [] fun h => absurd h Bool.false_ne_true
  have hfiles : b.files = files.map fun path =>
      (settled (Examined.ofPath? t policy) Examined.ofCrash path).report :=
    congrArg BatchReport.files hb
  have hverdict : b.verdict = .fail ↔ fails := by
    refine BatchReport.verdict_eq_fail_iff fun f hf => ?_
    rw [hfiles] at hf
    obtain ⟨path, -, rfl⟩ := List.mem_map.mp hf
    exact (reported_settled t policy path).verdict_eq
  have hunreadable : b.anyUnreadable = true ↔ failsToRead := by
    rw [BatchReport.anyUnreadable, hfiles, List.any_map, List.any_eq_true]
    exact exists_congr fun path =>
      and_congr_right fun _ => (reported_settled t policy path).unreadable_iff
  have hexit := Command.exitCodeFor_iff b
  rw [hunreadable, hverdict] at hexit
  refine ⟨fun examine crashed => ⟨?_, ?_⟩, hb.trans hserial.symm, ?_, ?_, hverdict, hexit⟩
  · rw [oneByOne_eq]
    exact byWorkers_eq examine crashed fun i hi => horder.mem_iff.mpr (List.mem_range.mpr hi)
  · rw [oneByOne_eq, List.forall₂_map_right_iff]
    exact List.forall₂_same.mpr fun path _ => settled_cases examine crashed path
  · rw [hfiles, List.map_map]
    exact (List.map_congr_left fun path _ => (reported_settled t policy path).path_eq).trans
      (List.map_id _)
  · intro f hf
    rw [hfiles] at hf
    obtain ⟨path, -, rfl⟩ := List.mem_map.mp hf
    have h := reported_settled t policy path
    exact h.path_eq.symm ▸ h

/-- A class text, and a file that is not a text. -/
def sampleFiles : FileTree where
  files := [(["a.e"], "class A end".toUTF8.toList), (["b.e"], [0xff])]

/-- Paths of the two files, and one that no file can have. -/
def samplePaths : List String :=
  ["a.e", "b.e", "c\x00.e"]

theorem batch_ignores_schedule_sample :
    let b := (Batch.run sampleFiles {} 2 [2, 0, 1] samplePaths).report
    [2, 0, 1].Perm (List.range (sampleFiles.discover samplePaths).length) ∧
      b = (Batch.run sampleFiles {} 1 [] samplePaths).report ∧
      b.files.map FileReport.path = samplePaths ∧
      internalErrorReport "c\x00.e" "embedded null byte" ∈ b.files ∧
      Command.exitCodeFor b = 2 := by
  intro b
  have hdiscover : sampleFiles.discover samplePaths = samplePaths := by cbv
  have horder : [2, 0, 1].Perm (List.range (sampleFiles.discover samplePaths).length) := by
    rw [hdiscover]
    decide
  have hb := batch_ignores_schedule sampleFiles {} samplePaths 2 horder
  rw [hdiscover] at hb
  obtain ⟨-, hserial, hpaths, hreported, -, hexit, -⟩ := hb
  refine ⟨horder, hserial, hpaths, ?_, hexit.mpr ⟨"b.e", by decide, by decide, ?_⟩⟩
  · have hmem : "c\x00.e" ∈ b.files.map FileReport.path := hpaths ▸ by decide
    obtain ⟨f, hf, hpath⟩ := List.mem_map.mp hmem
    have hf' := hreported f hf
    rw [hpath] at hf'
    rwa [hf'.eq_of_hasNul (by decide)] at hf
  · exact ⟨.notText ⟨.invalidStart, 0⟩, by cbv⟩

end ContractLint
