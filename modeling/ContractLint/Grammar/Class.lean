/-
# Class texts

A class text is an optional note, a header, clauses and `end`.  `Lexed.parse` reads it into a tree
with exactly one class, whatever the text is, and reports the faults: those of tokens first, then
those of the grammar in the order in which they were met.
-/
import ContractLint.Diagnostic
import ContractLint.Grammar.Clause

namespace ContractLint

namespace Part

/-- The parents among the parts of a class. -/
def parentNames (ps : List Part) : List Name :=
  ps.flatMap fun | parents names => names | _ => []

/-- The creation procedures among the parts of a class. -/
def creatorNames (ps : List Part) : List Name :=
  ps.flatMap fun | creators names => names | _ => []

/-- The feature clauses among the parts of a class. -/
def clauses (ps : List Part) : List Clause :=
  ps.filterMap fun | clause c => some c | _ => none

/-- The invariants among the parts of a class. -/
def invariants (ps : List Part) : List Invariant :=
  ps.filterMap fun | invariant i => some i | _ => none

end Part

/-- Several invariants count as one, at the place of the first. -/
def Invariant.merge? : List Invariant → Option Invariant
  | [] => none
  | i :: is =>
    some
      { block := { i.block with assertions := (i :: is).flatMap (·.block.assertions) }
        agents := (i :: is).flatMap Invariant.agents
        quantifiers := (i :: is).flatMap Invariant.quantifiers }

/-- Reads the header at the cursor.  Without one, the class has an empty name, at the token where
reading resumes. -/
def recoverHeader (c : Cursor) : Recovered Header :=
  match readHeader c with
  | .ok (header, n) => ⟨header, n, [], []⟩
  | .error e =>
    let n := c.resumeLength none
    let found := (c.drop n).peek
    ⟨{ name := ⟨"", found.location⟩ }, n, [e], [found]⟩

/-- What is wrong with the end of a class: `c` is behind its last clause. -/
def closingErrors (c : Cursor) : List SyntaxError :=
  if c.atEnd then [⟨.missingEnd, c.peek.location⟩]
  else if c.next.atEnd then []
  else [⟨.unexpectedAfterEnd c.next.peek, c.next.peek.location⟩]

/-- Reads a whole class text. -/
def readClass (c : Cursor) : Recovered ClassDecl :=
  let n₀ := if c.atKeyword [.kwNote] then classNoteLength c else 0
  let header := recoverHeader (c.drop n₀)
  let n₁ := n₀ + header.taken
  let (generics, k) := readGenerics (c.drop n₁)
  let n₂ := n₁ + k + obsoleteLength (c.drop (n₁ + k))
  let parts := readParts (c.drop n₂)
  let n₃ := n₂ + parts.taken
  { value :=
      { name := header.value.name
        kind := header.value.kind
        frozen := header.value.frozen
        generics := generics
        parents := Part.parentNames parts.value
        creators := Part.creatorNames parts.value
        clauses := Part.clauses parts.value
        invariant := Invariant.merge? (Part.invariants parts.value) }
    taken := n₃
    errors := header.errors ++ parts.errors ++ closingErrors (c.drop n₃)
    resumed := header.resumed ++ parts.resumed }

/-- A tree, what was wrong with its text, and the tokens at which reading resumed after a part
that could not be read. -/
structure Parsed where
  tree : Tree
  errors : List SyntaxError
  resumed : List Token
deriving Repr, Inhabited

/-- The faults of tokens as errors of the text. -/
def tokenErrors (ts : List Token) : List SyntaxError :=
  ts.filterMap fun t => t.fault.map fun fault => ⟨.token fault, t.location⟩

/-- The tree of a lexed text. -/
def Lexed.parse (x : Lexed) : Parsed :=
  let r := readClass (Cursor.ofLexed x)
  { tree := ⟨x.source.path, [r.value]⟩
    errors := tokenErrors x.tokens ++ r.errors
    resumed := r.resumed }

namespace Parsed

/-- How often reading resumed after a fault. -/
def recoveries (p : Parsed) : Nat :=
  p.resumed.length

/-- The errors as diagnostics. -/
def diagnostics (p : Parsed) : List Diagnostic :=
  p.errors.map fun e =>
    { rule := .syntaxError, severity := .error, message := e.fault.message,
      location := e.location, path := p.tree.path }

end Parsed

end ContractLint
