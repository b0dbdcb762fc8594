/-
# The analysis of one text

A source is read as tokens, the tokens as a tree, the checkers look at both, and what they and the
grammar found is collected under the suppressions of the text's own comments.  An `Analysis` keeps
every stage, so the report, the tree and the log are all views of it.

The analysis breaks off with the scan of the text (`Source.analyse?`); nothing behind the scan does.
-/
import ContractLint.Collection
import ContractLint.Log
import ContractLint.Rule.Registry

namespace ContractLint

/-- What is asked of an analysis: the rules to check and the severity that fails it. -/
structure Policy where
  rules : List RuleId := Rulebook.everyRule
  threshold : Severity := .error
deriving DecidableEq, Repr, Inhabited

/-- The stages of one text's analysis. -/
structure Analysis where
  lexed : Lexed
  parsed : Parsed
  runs : List CheckerRun
  collected : Collected

namespace Source

/-- The analysis of a source by some checkers. -/
def analyseWith (s : Source) (checkers : List Checker) (policy : Policy) : Analysis :=
  let lexed := s.lex
  let parsed := lexed.parse
  let runs := runCheckers checkers policy.rules ⟨lexed, parsed.tree⟩
  let found : Collection :=
    { threshold := policy.threshold, suppressions := suppressions lexed.tokens
      pending := parsed.diagnostics ++ CheckerRun.diagnostics runs }
  ⟨lexed, parsed, runs, found.close⟩

/-- The analysis of a source by all checkers. -/
def analyse (s : Source) (policy : Policy) : Analysis :=
  s.analyseWith registry policy

/-- The analysis of a source by all checkers, if the source can be scanned. -/
def analyse? (s : Source) (policy : Policy) : Except ConversionFault Analysis := do
  let _ ← s.lex?
  return s.analyse policy

end Source

namespace Analysis

/-- The path of the analysed text. -/
def path (a : Analysis) : String :=
  a.lexed.source.path

/-- What the log says about the analysis; `timing` stands for the time each checker took. -/
def log (timing : String) (a : Analysis) : List LogLine :=
  let line (speaker : Speaker) (message : String) : LogLine :=
    ⟨.debug, speaker, s!"{a.path}: {message}"⟩
  let resumed := a.parsed.resumed.map fun t => line .parser s!"resynchronised at {t.logged}"
  let classes := a.parsed.tree.classes.map fun c =>
    let name := Text.quoted c.name.text
    let features := c.features.length
    line .parser s!"parsed class {name}, {features} features, {a.parsed.recoveries} recoveries"
  let tokens := a.lexed.tokens.length
  let findings := a.lexed.findings.length
  let shown := a.collected.diagnostics.length
  let covered := a.collected.suppressed
  [line .lexer s!"{tokens} tokens, {findings} lexer diagnostics"] ++ resumed ++ classes ++
  [line .checkers (CheckerRun.summary timing a.runs),
   line .pipeline s!"{shown} diagnostics ({covered} suppressed), {a.parsed.recoveries} parser recoveries"]

end Analysis

end ContractLint
