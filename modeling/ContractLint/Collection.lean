/-
# Collected findings

What a file's report shows of everything that was found: covered findings are taken out, of
repeats the first stays, the rest is brought into report order, and the verdict is drawn.
A `Collection` gathers the findings of one file; closing it (`Collection.close`) leaves it as it
was, so more findings may follow.
-/
import ContractLint.Suppression
import ContractLint.Verdict

namespace ContractLint

namespace Diagnostic

/-- The findings without repeats of earlier ones. -/
def dedupe : List Diagnostic → List Diagnostic
  | [] => []
  | d :: ds => d :: (dedupe ds).filter fun e => e.identity ≠ d.identity

/-- Whatever is kept was there. -/
theorem mem_of_mem_dedupe {d : Diagnostic} {ds : List Diagnostic} (h : d ∈ dedupe ds) :
    d ∈ ds := by
  induction ds with
  | nil => exact h
  | cons e es ih =>
    rcases List.mem_cons.1 h with rfl | h
    · exact List.mem_cons_self
    · exact List.mem_cons_of_mem _ (ih (List.mem_filter.1 h).1)

/-- No two of the kept findings are repeats of each other. -/
theorem pairwise_dedupe (ds : List Diagnostic) :
    (dedupe ds).Pairwise fun a b => a.identity ≠ b.identity := by
  induction ds with
  | nil => exact .nil
  | cons d ds ih =>
    refine .cons (fun e he => ?_) (ih.filter _)
    exact fun h => of_decide_eq_true (List.mem_filter.1 he).2 h.symm

/-- The number of errors. -/
def errorCount (ds : List Diagnostic) : Nat :=
  ds.countP (·.severity == .error)

/-- The number of warnings. -/
def warningCount (ds : List Diagnostic) : Nat :=
  ds.countP (·.severity == .warning)

end Diagnostic

/-- What a file's report shows, the verdict, and how many findings were covered. -/
structure Collected where
  diagnostics : List Diagnostic
  verdict : Verdict
  suppressed : Nat
deriving DecidableEq, Repr, Inhabited

/-- The findings of one file so far, and how they are to be judged. -/
structure Collection where
  threshold : Severity := .error
  suppressions : List Suppression := []
  pending : List Diagnostic := []
deriving DecidableEq, Repr, Inhabited

namespace Collection

/-- Adds findings. -/
def extend (c : Collection) (ds : List Diagnostic) : Collection :=
  { c with pending := c.pending ++ ds }

/-- Adds the suppressions of a file's tokens. -/
def suppress (c : Collection) (ts : List Token) : Collection :=
  { c with suppressions := c.suppressions ++ ContractLint.suppressions ts }

/-- The pending findings that no suppression covers. -/
def kept (c : Collection) : List Diagnostic :=
  Suppression.filter c.suppressions c.pending

/-- What the report of the pending findings shows. -/
def close (c : Collection) : Collected :=
  let shown := Diagnostic.sort (Diagnostic.dedupe c.kept)
  { diagnostics := shown
    verdict := .ofFindings c.threshold shown
    suppressed := c.pending.length - c.kept.length }

end Collection

end ContractLint
