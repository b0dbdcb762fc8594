/-
# Lexed texts

A source read as tokens.  The scan goes through the text once and leaves a `Piece` at every line
start and at every token: the token, if there is one, what was found wrong with it, and what is
known about the lines it begins.  `Lexed` gathers the pieces and closes the tokens with the end of
the text.

Between tokens stand only blanks and line feeds, and the location that the scan carries is always
what `Location.after` makes of the text before it.

What runs is `Source.lex?`: the scan breaks off at the first escape whose number cannot be converted,
in a literal as well as in a comment, and then there are no tokens at all.
-/
import ContractLint.Source
import ContractLint.Token.Lexeme

namespace ContractLint

/-- What the scan found wrong without spoiling a token. -/
inductive FindingCause where
  /-- A line is indented with spaces. -/
  | spaceIndent
  /-- An escape is malformed, in a comment or in a literal. -/
  | escape (fault : EscapeFault) (inComment : Bool)
deriving DecidableEq, Repr, Inhabited

/-- A finding of the scan and its place. -/
structure Finding where
  cause : FindingCause
  location : Location
deriving DecidableEq, Repr, Inhabited

/-- What is known about a line: whether it belongs to a verbatim string's inside or end, and
whether it holds nothing but spaces and tabs. -/
structure LineFact where
  line : Int
  verbatim : Bool := false
  blank : Bool := false
deriving DecidableEq, Repr, Inhabited

/-- What one step of the scan leaves behind. -/
structure Piece where
  token : Option Token := none
  findings : List Finding := []
  lines : List LineFact := []
deriving DecidableEq, Repr, Inhabited

namespace Piece

/-- The piece of a line start at `loc`: `indent` are its leading spaces and tabs, `blank` says
whether nothing else is on the line. -/
def ofIndent (loc : Location) (indent : List Char) (blank : Bool) : Piece :=
  let fact : LineFact := { line := loc.line, blank := blank }
  if indent = [] ∨ blank then { lines := [fact] }
  else
    { token := some { kind := .indent, text := String.ofList indent, location := loc }
      findings :=
        if indent.contains ' ' then
          [⟨.spaceIndent, loc.after (indent.takeWhile (· != ' '))⟩]
        else []
      lines := [fact] }

/-- The piece of a lexeme at `loc` whose text is `text`. -/
def ofLexeme (loc : Location) (text : List Char) (x : Lexeme) : Piece :=
  { token := some
      { kind := x.kind, text := String.ofList text, location := loc, segments := x.segments,
        fault := x.fault }
    findings := x.issues.map fun issue =>
      ⟨.escape issue.fault (x.kind == .comment),
        loc.after (text.take (issue.offset - loc.offset).toNat)⟩
    lines := (List.range x.verbatimLines).map fun (n : Nat) =>
      { line := loc.line + 1 + n, verbatim := true } }

end Piece

/-- Whether the scan passes over `c` between tokens of a line. -/
def isSkipped (c : Char) : Bool :=
  c == ' ' || c == '\t' || c == '\x0c' || c == '\x0b'

/-- The pieces of the text `cs` at `loc`; `fresh` says that a line starts there. -/
def pieces (fresh : Bool) (loc : Location) (cs : List Char) : List Piece :=
  match fresh, cs with
  | _, [] => []
  | true, c :: rest =>
    let indent := (c :: rest).takeWhile isIndent
    let after := (c :: rest).drop indent.length
    let blank := after.head?.getD '\n' == '\n'
    Piece.ofIndent loc indent blank :: pieces false (loc.after indent) after
  | false, c :: rest =>
    if c = '\n' then pieces true (loc.next c) rest
    else if isSkipped c then pieces false (loc.next c) rest
    else
      let x := lexeme loc.offset c rest
      let text := c :: rest.take x.taken
      Piece.ofLexeme loc text x :: pieces false (loc.after text) (rest.drop x.taken)
termination_by (cs.length, if fresh then 1 else 0)
decreasing_by
  · simp only [List.length_drop, List.length_cons, if_true, if_false]
    rcases Nat.eq_zero_or_pos ((c :: rest).takeWhile isIndent).length with h | h
    · rw [h]
      exact Prod.Lex.right _ Nat.zero_lt_one
    · exact Prod.Lex.left _ _ (by omega)
  · exact Prod.Lex.left _ _ (by simp)
  · exact Prod.Lex.left _ _ (by simp)
  · exact Prod.Lex.left _ _ (by simp only [List.length_drop, List.length_cons]; omega)

/-- A source with its tokens, findings and line facts. -/
structure Lexed where
  source : Source
  tokens : List Token
  findings : List Finding
  lines : List LineFact
deriving DecidableEq, Repr, Inhabited

namespace Source

/-- The pieces of a source. -/
def pieceList (s : Source) : List Piece :=
  ContractLint.pieces true Location.start s.text

/-- The token at the end of a source. -/
def eof (s : Source) : Token :=
  { kind := .eof, text := "", location := Location.start.after s.text }

/-- The tokens of a source. -/
def lex (s : Source) : Lexed :=
  { source := s
    tokens := s.pieceList.filterMap Piece.token ++ [s.eof]
    findings := s.pieceList.flatMap Piece.findings
    lines := s.pieceList.flatMap Piece.lines }

end Source

/-- Why the scan of a token breaks off, if it does. -/
def Token.conversionFault? (t : Token) : Option ConversionFault :=
  if t.kind = .comment then Lexeme.commentConversionFault? (t.text.toList.drop 2)
  else t.segments.findSome? Segment.conversionFault?

/-- The tokens of a source, if all numbers in its escapes can be converted. -/
def Source.lex? (s : Source) : Except ConversionFault Lexed :=
  match s.lex.tokens.findSome? Token.conversionFault? with
  | some fault => .error fault
  | none => .ok s.lex

namespace Lexed

/-- The tokens that the grammar looks at, and the end of the text. -/
def significant (x : Lexed) : List Token :=
  x.tokens.filter fun t => !t.isTrivia

/-- The token whose text covers an offset; the end of the text covers the offset after the last
character. -/
def tokenAt? (x : Lexed) (offset : Int) : Option Token :=
  match (x.tokens.takeWhile fun t => t.offset ≤ offset).getLast? with
  | none => none
  | some t => if offset < max t.endOffset (t.offset + 1) then some t else none

end Lexed

/-- A token together with the numbers of findings and of line facts known once it was read. -/
structure Progress where
  token : Token
  findings : Nat
  lines : Nat
deriving DecidableEq, Repr, Inhabited

/-- The progress of a scan over `ps`, where `findings` and `lines` were known before. -/
def progressFrom (findings lines : Nat) : List Piece → List Progress
  | [] => []
  | p :: ps =>
    let findings := findings + p.findings.length
    let lines := lines + p.lines.length
    (p.token.map fun t => ⟨t, findings, lines⟩).toList ++ progressFrom findings lines ps

/-- The progress of the scan over a source, the end of the text included. -/
def Source.progress (s : Source) : List Progress :=
  let x := s.lex
  progressFrom 0 0 s.pieceList ++ [⟨s.eof, x.findings.length, x.lines.length⟩]

end ContractLint
