/-
# Findings of the scan as diagnostics

The scan reports malformed escapes and space indentation without knowing the file.  Here its
findings become diagnostics of a path.  Every malformed escape counts as an error at first; the
escape rule looks again at those in comments.
-/
import ContractLint.Diagnostic
import ContractLint.Token.Lexed

namespace ContractLint

/-- The diagnostic of a finding in the file at `path`. -/
def Finding.diagnostic (path : String) (f : Finding) : Diagnostic :=
  match f.cause with
  | .spaceIndent =>
    { rule := .tabExpected, severity := .warning
      message := "indentation contains space characters; use tabs"
      location := f.location, fix := some "indent with tab characters", path := path }
  | .escape fault inComment =>
    { rule := .invalidEscape, severity := .error
      message := if inComment then s!"{fault.message} in comment" else fault.message
      location := f.location, path := path }

/-- The scan's findings as diagnostics. -/
def Lexed.diagnostics (x : Lexed) : List Diagnostic :=
  x.findings.map (Finding.diagnostic x.source.path)

end ContractLint
