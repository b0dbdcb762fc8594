/-
# Lexemes

How one token is read.  `lexeme` looks at a character and what follows it, and answers what kind of
token starts there and how many of the FOLLOWING characters belong to it.  The first character
always belongs to the token, so reading a lexeme makes progress by construction.

A string ends at the next quote of its line that is outside an escape.  A VERBATIM string opens
with a bracket or brace that only blanks follow on its line, takes whole lines as they are, and
closes on the first line that starts, after spaces and tabs, with the closing mark.
-/
import ContractLint.Text.Digit
import ContractLint.Text.Split
import ContractLint.Token

namespace ContractLint

/-- What starts at a character: the kind of token, the number of characters after the first, and
what the token carries. -/
structure Lexeme where
  kind : Kind
  taken : Nat
  segments : List Segment := []
  fault : Option TokenFault := none
  /-- Malformed escapes of the token. -/
  issues : List EscapeIssue := []
  /-- The number of further lines that a verbatim string occupies. -/
  verbatimLines : Nat := 0
deriving DecidableEq, Repr, Inhabited

/-- The rest of the line that `cs` starts on. -/
def restOfLine (cs : List Char) : List Char :=
  cs.takeWhile (· != '\n')

/-- Whether `c` may stand in the indentation of a line. -/
def isIndent (c : Char) : Bool :=
  c == ' ' || c == '\t'

namespace Lexeme

/-! ## 1. Comments -/

/-- The malformed escapes of a comment's text at `offset`.  Only a percent sign that is meant as
an escape is looked at. -/
def commentIssues (offset : Int) (cs : List Char) : List EscapeIssue :=
  match cs with
  | [] => []
  | c :: rest =>
    if c = '%' ∧ Escape.isIntended rest then
      let s := Escape.scan rest
      (Segment.ofScan offset rest s).issue?.toList ++
        commentIssues (offset + 1 + s.taken) (rest.drop s.taken)
    else commentIssues (offset + 1) rest
termination_by cs.length
decreasing_by all_goals simp only [List.length_drop, List.length_cons]; omega

/-- Why the scan of a comment's text breaks off, if it does: at the first escape, of those that are
looked at, whose number cannot be converted. -/
def commentConversionFault? (cs : List Char) : Option ConversionFault :=
  match cs with
  | [] => none
  | c :: rest =>
    if c = '%' ∧ Escape.isIntended rest then
      match Escape.scan? rest with
      | .error fault => some fault
      | .ok s => commentConversionFault? (rest.drop s.taken)
    else commentConversionFault? rest
termination_by cs.length
decreasing_by all_goals simp only [List.length_drop, List.length_cons]; omega

/-- A comment at `offset`; `cs` follows its first dash and starts with the second. -/
def comment (offset : Int) (cs : List Char) : Lexeme :=
  let line := restOfLine cs
  { kind := .comment, taken := line.length, issues := commentIssues (offset + 2) (line.drop 1) }

/-! ## 2. Strings -/

/-- The content lines of a verbatim string, and the length of its closing line up to the end of
the closing mark, if there is one. -/
def verbatimBody (closer : List Char) : List (List Char) → List (List Char) × Option Nat
  | [] => ([], none)
  | line :: lines =>
    let margin := (line.takeWhile isIndent).length
    if closer.isPrefixOf (line.drop margin) then ([], some (margin + closer.length))
    else
      let (content, closing) := verbatimBody closer lines
      (line :: content, closing)

/-- A verbatim string, whose opening line `opening` starts `cs`. -/
def verbatim (closer opening cs : List Char) : Lexeme :=
  match cs.drop opening.length with
  | [] => { kind := .string, taken := cs.length, fault := some .unterminatedVerbatim }
  | _ :: body =>
    let (content, closing) := verbatimBody closer (Text.splitAt '\n' body)
    let value := Text.joinWith '\n' content
    let segs := if value = [] then [] else [Segment.plain value]
    match closing with
    | some n =>
      let before := (content.flatMap fun line => line ++ ['\n']).length
      { kind := .string, taken := opening.length + 1 + before + n, segments := segs,
        verbatimLines := content.length + 1 }
    | none =>
      { kind := .string, taken := cs.length, segments := segs,
        fault := some .unterminatedVerbatim, verbatimLines := content.length }

/-- The closing mark of a verbatim string, if the opening line makes the string one. -/
def verbatimCloser? : List Char → Option (List Char)
  | '[' :: rest => if rest.all Text.isBlank then some [']', '"'] else none
  | '\x7b' :: rest => if rest.all Text.isBlank then some ['\x7d', '"'] else none
  | _ => none

/-- A string on one line; `line` is what follows its opening quote there. -/
def manifest (offset : Int) (line : List Char) : Lexeme :=
  let segs := ContractLint.segments (· == '"') (offset + 1) line
  let content := (Segment.sources segs).length
  let issues := Segment.issues segs
  match line.drop content with
  | [] => { kind := .string, taken := content, segments := segs, issues := issues,
            fault := some .unterminatedString }
  | _ :: _ => { kind := .string, taken := content + 1, segments := segs, issues := issues }

/-- A string at `offset`; `cs` follows its opening quote. -/
def string (offset : Int) (cs : List Char) : Lexeme :=
  let line := restOfLine cs
  match verbatimCloser? line with
  | some closer => verbatim closer line cs
  | none => manifest offset line

/-! ## 3. Characters -/

/-- The content of a character literal that starts at `offset` with `c`, and the number of
characters in `rest` that belong to it. -/
def characterContent (offset : Int) (c : Char) (rest : List Char) : Segment × Nat :=
  if c = '%' then
    let s := Escape.scan rest
    (Segment.ofScan offset rest s, s.taken)
  else (.plain [c], 0)

/-- The kind of a character literal with this content. -/
def characterKind : Segment → Kind
  | .escape _ ⟨.numeric _ _ _, _⟩ => .numericEscape
  | _ => .character

/-- A character literal at `offset`; `cs` follows its opening quote. -/
def character (offset : Int) (cs : List Char) : Lexeme :=
  match restOfLine cs with
  | [] => { kind := .character, taken := 0, fault := some .emptyCharacter }
  | c :: rest =>
    if c = '\'' then { kind := .character, taken := 1, fault := some .emptyCharacter }
    else
      let (seg, n) := characterContent (offset + 1) c rest
      let after := rest.drop n
      let overlong := (after.takeWhile (· != '\'')).length
      let closed := overlong < after.length
      { kind := characterKind seg
        taken := 1 + n + overlong + (if closed then 1 else 0)
        segments := [seg]
        issues := Segment.issues [seg]
        fault :=
          if !closed then some .unterminatedCharacter
          else if overlong = 0 then none
          else some .overlongCharacter }

/-! ## 4. Words, numbers and operators -/

/-- Whether `c` continues a word; words are ASCII. -/
def isWordTail (c : Char) : Bool :=
  c.isAlphanum || c == '_'

/-- A keyword or an identifier that starts with the letter `c`. -/
def word (c : Char) (cs : List Char) : Lexeme :=
  let tail := cs.takeWhile isWordTail
  { kind := ((Keyword.ofText? (c :: tail)).map Kind.keyword).getD .identifier
    taken := tail.length }

/-- Whether `c` continues the digits of a number. -/
def isNumberTail (c : Char) : Bool :=
  Text.isDigit c || c == '_'

/-- The length of a fraction: a dot, a digit and whatever continues it. -/
def fraction : List Char → Nat
  | '.' :: d :: rest => if Text.isDigit d then 2 + (rest.takeWhile isNumberTail).length else 0
  | _ => 0

/-- The length of an exponent's sign. -/
def sign : List Char → Nat
  | c :: _ => if c = '+' ∨ c = '-' then 1 else 0
  | [] => 0

/-- The length of an exponent: its letter, a sign that may be missing, and at least one digit. -/
def exponent : List Char → Nat
  | e :: rest =>
    if e = 'e' ∨ e = 'E' then
      match (rest.drop (sign rest)).takeWhile Text.isDigit with
      | [] => 0
      | digits => 1 + sign rest + digits.length
    else 0
  | [] => 0

/-- The length of a decimal number after its first digit. -/
def decimalTail (cs : List Char) : Nat :=
  let whole := (cs.takeWhile isNumberTail).length
  let part := fraction (cs.drop whole)
  whole + part + exponent (cs.drop (whole + part))

/-- The length of a number after its first digit `c`.  A zero and a radix letter take every word
character that follows. -/
def numberTail (c : Char) (cs : List Char) : Nat :=
  match cs with
  | letter :: rest =>
    if c = '0' ∧ (Radix.ofLetter? letter).isSome then
      1 + (rest.takeWhile Text.isWordChar).length
    else decimalTail cs
  | [] => 0

/-- An operator, or a character that starts no token. -/
def operator (c : Char) (cs : List Char) : Lexeme :=
  match Symbol.read? (c :: cs) with
  | some s => { kind := .operator s, taken := s.spelling.length - 1 }
  | none => { kind := .invalid, taken := 0, fault := some (.unexpectedCharacter c) }

end Lexeme

/-! ## 5. The lexeme at a character -/

/-- The lexeme that starts with the character `c` at `offset`; `cs` follows it. -/
def lexeme (offset : Int) (c : Char) (cs : List Char) : Lexeme :=
  if c = '-' ∧ cs.head? = some '-' then .comment offset cs
  else if c = '"' then .string offset cs
  else if c = '\'' then .character offset cs
  else if c.isAlpha then .word c cs
  else if Text.isDigit c then { kind := .number, taken := Lexeme.numberTail c cs }
  else .operator c cs

end ContractLint
