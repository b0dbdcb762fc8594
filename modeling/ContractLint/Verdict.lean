/-
# Verdicts

A run over findings FAILS when one of them weighs at least as much as the threshold.
-/
import ContractLint.Diagnostic

namespace ContractLint

/-- The outcome of a run. -/
inductive Verdict where
  | pass
  | fail
deriving DecidableEq, Repr, Inhabited

namespace Verdict

/-- The verdict's name in answers. -/
def label : Verdict → String
  | pass => "pass"
  | fail => "fail"

/-- Whether the run passed. -/
def passed (v : Verdict) : Bool :=
  v == .pass

/-- The verdict on findings under a threshold. -/
def ofFindings (threshold : Severity) (ds : List Diagnostic) : Verdict :=
  if ds.any (·.severity.atLeast threshold) then .fail else .pass

theorem ofFindings_eq_fail_iff {threshold : Severity} {ds : List Diagnostic} :
    ofFindings threshold ds = .fail ↔ ∃ d ∈ ds, d.severity.atLeast threshold = true := by
  simp [ofFindings]

end Verdict

end ContractLint
