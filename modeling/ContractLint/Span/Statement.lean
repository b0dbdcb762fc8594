/-
# Statements of a span

A span of tokens is a sequence of statements, or of assertions.  A statement begins outside all
blocks and brackets, after a semicolon or on a new line; a new line does not begin one where the
line before is obviously unfinished or the new one obviously goes on (`continues`).  Semicolons
separate and belong to no statement.
-/
import ContractLint.Span.Nesting

namespace ContractLint

/-- Symbols that no statement ends with. -/
def trailingSymbols : List Symbol :=
  [.plus, .minus, .times, .divide, .quotient, .remainder, .power, .equal, .notEqual, .alike,
   .notAlike, .less, .greater, .lessEqual, .greaterEqual, .assign, .assignAttempt, .comma,
   .openParen, .openBracket, .openBrace, .dot, .arrow, .interval, .bar, .ampersand, .atSign,
   .hash, .dollar, .colon, .bang]

/-- Keywords that no statement ends with. -/
def trailingKeywords : List Keyword :=
  [.kwAnd, .kwOr, .kwXor, .kwImplies, .kwNot, .kwThen, .kwElse, .kwOld, .kwAttached, .kwAs,
   .kwAgent, .kwCreate, .kwLike]

/-- Symbols that no statement starts with. -/
def leadingSymbols : List Symbol :=
  [.closeParen, .closeBracket, .closeBrace, .dot, .plus, .minus, .times, .divide, .quotient,
   .remainder, .power, .equal, .notEqual, .alike, .notAlike, .less, .greater, .lessEqual,
   .greaterEqual, .assign, .assignAttempt, .comma, .arrow, .interval, .brokenBar]

/-- Keywords that no statement starts with. -/
def leadingKeywords : List Keyword :=
  [.kwAnd, .kwOr, .kwXor, .kwImplies, .kwThen, .kwElse, .kwAs]

/-- Whether the expression of `p` goes on at `t` on a later line. -/
def continues (p t : Token) : Bool :=
  p.isSymbol trailingSymbols || p.isKeyword trailingKeywords ||
    t.isSymbol leadingSymbols || t.isKeyword leadingKeywords

/-- Whether a token separates statements. -/
def isSeparator (t : Token) : Bool :=
  t.isSymbol [.semicolon]

/-- Whether a statement begins at `t`, with `prev` before it and the nesting `n` there. -/
def beginsStatement (n : Nesting) (prev : Option Token) (t : Token) : Bool :=
  !isSeparator t &&
    match prev with
    | none => true
    | some p => n.level == 0 && (isSeparator p || (p.line < t.line && !continues p t))

/-- The tokens, each with whether it begins a statement.  None does from the end of the text on. -/
def marked (n : Nesting) (prev : Option Token) : List Token → List (Bool × Token)
  | [] => []
  | t :: ts =>
    if t.isEof then (false, t) :: ts.map (false, ·)
    else (beginsStatement n prev t, t) :: marked (n.feed t ts.head?) (some t) ts

/-- The tokens before the first mark, and the groups that each begin at a mark. -/
def grouped : List (Bool × Token) → List Token × List (List Token)
  | [] => ([], [])
  | (begins, t) :: rest =>
    let (before, groups) := grouped rest
    if begins then ([], (t :: before) :: groups) else (t :: before, groups)

/-- The indices at which the statements of `ts` begin. -/
def statementStarts (ts : List Token) : List Nat :=
  (marked {} none ts).zipIdx.filterMap fun (m, i) => if m.1 then some i else none

/-- The statements of `ts`, without separators and the end of the text. -/
def statements (ts : List Token) : List (List Token) :=
  (grouped (marked {} none ts)).2.map (List.filter fun t => !isSeparator t && !t.isEof)

/-- The number of statements of `ts`. -/
def statementCount (ts : List Token) : Nat :=
  (statements ts).length

/-- Whether the identifier `t` may be the whole target of an assignment, with `prev` before it: it
is not selected from something, and no other identifier stands before it on its line. -/
def isTarget (prev : Option Token) (t : Token) : Bool :=
  match prev with
  | none => true
  | some p => !p.isSymbol [.dot] && !(p.isIdentifier && p.line == t.line)

/-- The assigned identifiers of `ts`, with `prev` before them. -/
def assignedAfter (prev : Option Token) : List Token → List Token
  | t :: u :: ts =>
    let rest := assignedAfter (some t) (u :: ts)
    if t.isIdentifier && u.isSymbol [.assign, .assignAttempt] && isTarget prev t then t :: rest
    else rest
  | _ => []

/-- The identifiers that `ts` assigns to, at any depth. -/
def assignedNames (ts : List Token) : List Token :=
  assignedAfter none ts

end ContractLint
