/-
# Tallies

How many errors and warnings there were in how many files, and the line that says so.  A count
that is zero is left out.
-/
import ContractLint.Collection

namespace ContractLint

/-- Counts of a run. -/
structure Tally where
  errors : Int := 0
  warnings : Int := 0
  files : Int := 0
deriving DecidableEq, Repr, Inhabited

namespace Tally

/-- The tally of findings. -/
def ofFindings (ds : List Diagnostic) : Tally :=
  { errors := Diagnostic.errorCount ds, warnings := Diagnostic.warningCount ds }

/-- Errors and warnings together. -/
def total (t : Tally) : Int :=
  t.errors + t.warnings

/-- A number of things, in the plural unless it is one. -/
def counted (n : Int) (thing : String) : String :=
  let ending := if n = 1 then "" else "s"
  s!"{n} {thing}{ending}"

/-- The line that sums a run up. -/
def summary (t : Tally) : String :=
  let parts := ([(t.errors, "error"), (t.warnings, "warning")].filter (·.1 ≠ 0)).map
    fun (n, thing) => counted n thing
  let checked := if t.files = 0 then "" else " in " ++ counted t.files "file"
  let found := "; ".intercalate parts
  if parts.isEmpty then s!"no diagnostics{checked}"
  else s!"{found} ({t.total} total){checked}"

end Tally

end ContractLint
