/-
# Suppressions

A comment may hold a DIRECTIVE, `eiflint: ignore` or `eiflint: ignore-file`, followed by rule
identifiers between commas; `*` stands for all of them.  `ignore-file` covers the whole file.
`ignore` covers the comment's own line when code ends on that line before it, and the next line
when the comment stands alone.  Syntax errors and unreadable files are never covered.
-/
import ContractLint.Diagnostic
import ContractLint.Text.Alphanumeric
import ContractLint.Text.Split
import ContractLint.Token

namespace ContractLint

/-! ## 1. Directives -/

/-- What a directive reaches. -/
inductive Reach where
  /-- The line of the comment or the line after it. -/
  | line
  /-- The whole file. -/
  | file
deriving DecidableEq, Repr, Inhabited

/-- The content of a directive: what it reaches and the identifiers it lists. -/
structure Directive where
  reach : Reach
  ids : List RuleId
deriving DecidableEq, Repr, Inhabited

namespace Directive

/-- The text after `word`, if `cs` starts with it. -/
def dropWord? (word : String) (cs : List Char) : Option (List Char) :=
  if word.toList.isPrefixOf cs then some (cs.drop word.length) else none

/-- The text after `word`, if `cs` starts with it as a whole word. -/
def dropWholeWord? (word : String) (cs : List Char) : Option (List Char) :=
  (dropWord? word cs).filter fun rest => !(rest.head?.map Text.isWordChar).getD false

/-- The identifiers of a list, trimmed and in lower case; empty entries do not count. -/
def idsOf (list : List Char) : List RuleId :=
  (((Text.splitAt ',' list).map Text.trimChars).filter (· ≠ [])).map fun id =>
    Text.lower (String.ofList id)

/-- The directive that starts at `cs`. -/
def atStart? (cs : List Char) : Option Directive :=
  (dropWord? "eiflint:" cs).bind fun rest =>
    let body := rest.dropWhile Text.isBlank
    match dropWholeWord? "ignore-file" body with
    | some list => some ⟨.file, idsOf list⟩
    | none => (dropWholeWord? "ignore" body).map fun list => ⟨.line, idsOf list⟩

/-- The first directive in a comment's text. -/
def find? : List Char → Option Directive
  | [] => none
  | c :: cs =>
    match atStart? (c :: cs) with
    | some d => some d
    | none => find? cs

end Directive

/-- The directive of a token, which has one only if it is a comment. -/
def Token.directive? (t : Token) : Option Directive :=
  if t.kind = .comment then Directive.find? t.commentText.toList else none

/-! ## 2. What directives cover -/

/-- The part of a file in which findings are covered. -/
inductive Coverage where
  | file
  | line (line : Int)
deriving DecidableEq, Repr, Inhabited

/-- Rule identifiers covered in a part of a file. -/
structure Suppression where
  coverage : Coverage
  ids : List RuleId
deriving DecidableEq, Repr, Inhabited

namespace Token

/-- Whether the token is code: neither trivia nor the end of the text. -/
def isCode (t : Token) : Bool :=
  !t.isTrivia && !t.isEof

/-- The line on which the token ends; only verbatim strings go over several lines. -/
def lastLine (t : Token) : Int :=
  t.line + t.text.toList.count '\n'

/-- The suppression of a comment, when the code before it ended on the line `codeLine`. -/
def suppression? (t : Token) (codeLine : Int) : Option Suppression :=
  t.directive?.map fun d =>
    match d.reach with
    | .file => ⟨.file, d.ids⟩
    | .line => ⟨.line (if codeLine = t.line then t.line else t.line + 1), d.ids⟩

end Token

/-- The suppressions of tokens that stand after code which ended on the line `codeLine`. -/
def suppressionsAfter (codeLine : Int) : List Token → List Suppression
  | [] => []
  | t :: ts =>
    (t.suppression? codeLine).toList ++
      suppressionsAfter (if t.isCode then t.lastLine else codeLine) ts

/-- The suppressions of a file's tokens. -/
def suppressions (ts : List Token) : List Suppression :=
  suppressionsAfter 0 ts

/-! ## 3. Covered findings -/

/-- The rules that no suppression covers. -/
def unsuppressible : List RuleId :=
  [.syntaxError, .ioError]

namespace Suppression

/-- Whether the identifiers list a rule. -/
def lists (s : Suppression) (rule : RuleId) : Bool :=
  s.ids.contains rule || s.ids.contains "*"

/-- Whether the suppression is in force on a line. -/
def reaches (s : Suppression) (line : Int) : Bool :=
  match s.coverage with
  | .file => true
  | .line n => n == line

/-- Whether the suppression covers a finding. -/
def covers (s : Suppression) (d : Diagnostic) : Bool :=
  s.reaches d.location.line && s.lists d.rule

/-- Whether one of the suppressions covers a finding. -/
def isSuppressed (ss : List Suppression) (d : Diagnostic) : Bool :=
  !unsuppressible.contains d.rule && ss.any (·.covers d)

/-- The findings that no suppression covers. -/
def filter (ss : List Suppression) (ds : List Diagnostic) : List Diagnostic :=
  ds.filter fun d => !isSuppressed ss d

/-- The identifiers of the whole file, each once, in order. -/
def fileIds (ss : List Suppression) : List RuleId :=
  ((ss.filter (·.coverage = .file)).flatMap ids).eraseDups.mergeSort (· ≤ ·)

/-- The line of a suppression that is not for the whole file. -/
def line? (s : Suppression) : Option Int :=
  match s.coverage with
  | .file => none
  | .line n => some n

/-- The lines with a suppression of their own, in order, each with its identifiers in order. -/
def byLine (ss : List Suppression) : List (Int × List RuleId) :=
  ((ss.filterMap line?).eraseDups.mergeSort (· ≤ ·)).map fun n =>
    (n, ((ss.filter (·.coverage = .line n)).flatMap ids).eraseDups.mergeSort (· ≤ ·))

end Suppression

end ContractLint
