/-
# Class headers

The header of a class is its marks, `class` and the name.  Formal generics in square brackets may
follow, and a note may stand before.
-/
import ContractLint.Grammar.Cursor

namespace ContractLint

/-- The number of items of a note of the class at the cursor: it lasts up to a line that starts
with the header, a clause or `end`. -/
def classNoteLength (c : Cursor) : Nat :=
  let isLimit (i : Item) : Bool :=
    i.startsLine && i.token.isKeyword (classMarks ++ [.kwClass, .kwEnd] ++ clauseKeywords)
  1 + (c.next.items.takeWhile fun i => !isLimit i).length

/-- What the header says about a class. -/
structure Header where
  name : Name
  kind : ClassKind := .ordinary
  frozen : Bool := false
deriving DecidableEq, Repr, Inhabited

/-- The kind that a class has after one more mark. -/
def ClassKind.marked (kind : ClassKind) (t : Token) : ClassKind :=
  if t.isKeyword [.kwOnce] then .once
  else if t.isKeyword [.kwDeferred] then .deferred
  else if t.isKeyword [.kwExpanded] then .expanded
  else kind

/-- Reads the header at the cursor: marks, `class` and the name. -/
def readHeader (c : Cursor) : Except SyntaxError (Header × Nat) :=
  let marks := (c.items.takeWhile fun i => i.token.isKeyword classMarks).map Item.token
  let keyword := c.drop marks.length
  let name := keyword.next
  if keyword.atKeyword [.kwClass] then
    if name.atIdentifier then
      .ok (⟨name.peek.name, marks.foldl ClassKind.marked .ordinary,
        marks.any (·.isKeyword [.kwFrozen])⟩, marks.length + 2)
    else name.fail (.expectedName .className name.peek)
  else keyword.fail (.expectedKeyword .kwClass keyword.peek)

/-- Keywords that may stand before the name of a formal generic. -/
def genericMarks : List Keyword :=
  [.kwFrozen, .kwDetachable, .kwAttached, .kwSeparate, .kwExpanded]

/-- The names of formal generics among `is`, at `depth` open brackets; `expects` says whether the
next identifier at depth one is such a name. -/
def genericNames (depth : Nat) (expects : Bool) : List Item → List Name
  | [] => []
  | i :: is =>
    let t := i.token
    if t.isSymbol [.openBracket] then genericNames (depth + 1) (depth == 0) is
    else if t.isSymbol [.closeBracket] then genericNames (depth - 1) expects is
    else if depth == 1 then
      if t.isSymbol [.comma] then genericNames depth true is
      else
        let names := genericNames depth (expects && t.isKeyword genericMarks) is
        if expects && t.isIdentifier then t.name :: names else names
    else genericNames depth expects is

/-- The formal generics in the brackets at the cursor, if there are any. -/
def readGenerics (c : Cursor) : List Name × Nat :=
  let n := c.bracketLength
  (genericNames 0 true (c.items.take n), n)

end ContractLint
