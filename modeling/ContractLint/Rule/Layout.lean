/-
# Layout

Lines are indented with tabs and do not end in spaces or tabs.  The inside and the last line of a
verbatim string may end as they like.
-/
import ContractLint.Rule.Subject

namespace ContractLint.Layout

/-- Whether a line belongs to the inside or the end of a verbatim string. -/
def isVerbatim (s : Subject) (line : Nat) : Bool :=
  s.lexed.lines.any fun f => f.verbatim && f.line == (line : Int)

/-- Whether a line holds nothing but spaces and tabs. -/
def isBlankLine (s : Subject) (line : Nat) : Bool :=
  s.lexed.lines.any fun f => f.blank && f.line == (line : Int)

/-- The finding about the end of a line, which starts at the offset `start`. -/
def trailing? (s : Subject) (line start : Nat) (text : List Char) : Option Diagnostic :=
  let kept := (Text.dropEndWhile isIndent text).length
  if isVerbatim s line || kept == text.length then none
  else
    some (s.report Rulebook.trailingWhitespace
      (if isBlankLine s line then "whitespace-only line" else "trailing whitespace")
      (s.lexed.source.location (start + kept : Nat)) (some "remove trailing whitespace"))

/-- The findings about the ends of the lines from number `line` on, which start at `start`. -/
def trailingFrom (s : Subject) (line start : Nat) : List (List Char) → List Diagnostic
  | [] => []
  | text :: texts =>
    (trailing? s line start text).toList ++
      trailingFrom s (line + 1) (start + text.length + 1) texts

/-- The findings of the layout rules: those about indentation, then those about line ends. -/
def check (s : Subject) : List Diagnostic :=
  s.lexed.diagnostics.filter (·.rule == .tabExpected) ++
    trailingFrom s 1 0 s.lexed.source.lines

/-- The checker of the layout rules. -/
def checker : Checker :=
  .ofRules "LayoutChecker" [Rulebook.tabExpected, Rulebook.trailingWhitespace] check

end ContractLint.Layout
