/-
# Assertions

An assertion block is a keyword and a span of assertions, which are split like statements.  An
assertion may start with a label and a colon.  Blocks also stand inside routine bodies: the
invariant of a loop and the `check` instruction.
-/
import ContractLint.Grammar.Construct
import ContractLint.Grammar.Cursor
import ContractLint.Span.Statement

namespace ContractLint

/-- The assertion that the tokens `t :: ts` spell. -/
def Assertion.ofTokens (t : Token) (ts : List Token) : Assertion :=
  match ts with
  | colon :: rest =>
    if t.isIdentifier && colon.isSymbol [.colon] then ⟨some t.text, rest, t.location⟩
    else ⟨none, t :: ts, t.location⟩
  | [] => ⟨none, [t], t.location⟩

/-- The assertions of a span. -/
def assertions (span : List Token) : List Assertion :=
  (statements span).filterMap fun
    | [] => none
    | t :: ts => some (Assertion.ofTokens t ts)

/-- The constructs of all expressions of a block. -/
def AssertionBlock.constructs (b : AssertionBlock) : List Construct :=
  b.assertions.flatMap fun a => ContractLint.constructs a.expression

/-- What a kind of block may be extended by, and the keywords that end it. -/
structure BlockGrammar where
  kind : AssertionKind
  extension : List Keyword
  stops : List Keyword

namespace BlockGrammar

/-- Preconditions end where the routine's own part starts. -/
def precondition : BlockGrammar where
  kind := .precondition
  extension := [.kwElse]
  stops := [.kwLocal, .kwDo, .kwOnce, .kwDeferred, .kwExternal, .kwAttribute, .kwEnsure, .kwEnd]

/-- Postconditions end with the routine, or where its rescue starts. -/
def postcondition : BlockGrammar where
  kind := .postcondition
  extension := [.kwThen]
  stops := [.kwRescue, .kwEnd]

/-- Class invariants end with the class, or where its notes start. -/
def classInvariant : BlockGrammar where
  kind := .classInvariant
  extension := []
  stops := [.kwEnd, .kwNote]

end BlockGrammar

/-- Reads the block whose keyword is at the cursor. -/
def readBlock (g : BlockGrammar) (c : Cursor) : Taken AssertionBlock :=
  let extended := c.next.optKeyword g.extension
  let inner := c.drop (1 + extended)
  let n := spanLength g.stops [.kwFeature] inner.tokens
  { value :=
      { kind := g.kind
        location := c.peek.location
        assertions := assertions (inner.take n)
        extended := extended == 1 }
    taken := 1 + extended + n }

/-- Keywords that end the invariant of a loop. -/
def loopInvariantStops : List Keyword :=
  [.kwUntil, .kwVariant, .kwLoop]

/-- Keywords that end the assertions of a check. -/
def checkStops : List Keyword :=
  [.kwEnd, .kwThen]

/-- The block after the keyword `t` inside a body: `span` follows it. -/
def innerBlock (kind : AssertionKind) (stops : List Keyword) (t : Token) (span : List Token) :
    AssertionBlock :=
  { kind := kind
    location := t.location
    assertions := assertions (span.take (spanLength stops [] span)) }

/-- The block that the token `t` of a body opens at nesting `n`; `ts` follows it. -/
def innerBlock? (n : Nesting) (t : Token) (ts : List Token) : Option AssertionBlock :=
  let inLoop := n.top? == some (.compound .fromLoop) || n.top? == some (.compound .acrossLoop)
  if t.isKeyword [.kwInvariant] && inLoop then
    some (innerBlock .loopInvariant loopInvariantStops t ts)
  else if t.isKeyword [.kwCheck] then some (innerBlock .check checkStops t ts)
  else none

/-- The loop invariants and checks of a body, read at nesting `n`. -/
def innerBlocksFrom (n : Nesting) : List Token → List AssertionBlock
  | [] => []
  | t :: ts => (innerBlock? n t ts).toList ++ innerBlocksFrom (n.feed t ts.head?) ts

/-- The loop invariants and checks of a body. -/
def innerBlocks (body : List Token) : List AssertionBlock :=
  innerBlocksFrom {} body

end ContractLint
