/-
# Resuming after a fault

When a part of a class cannot be read, reading resumes at the next place where something new can
start.  Items are passed over, with blocks balanced, until

* a keyword that can only start a clause (`feature`, `inherit`, `convert`), at any depth;
* any other boundary keyword outside all blocks;
* a declaration that starts a line in the column of the faulty one, outside all blocks;
* or just after the `end` of a block that was opened while passing over.
-/
import ContractLint.Grammar.Cursor

namespace ContractLint

/-- Keywords that stop passing over items at any depth. -/
def hardBoundaries : List Keyword :=
  [.kwFeature, .kwInherit, .kwConvert]

/-- Whether an item can start a declaration. -/
def Item.startsDeclaration (i : Item) : Bool :=
  i.token.isIdentifier || i.token.isKeyword [.kwFrozen]

/-- Whether an item starts a line in the given column with a declaration. -/
def Item.isSibling (i : Item) (column : Option Int) : Bool :=
  column == some i.token.column && i.startsDeclaration && i.startsLine

/-- Whether reading resumes in front of the item `i`, met at nesting `n`. -/
def resumesAt (column : Option Int) (n : Nesting) (i : Item) : Bool :=
  i.token.isKeyword hardBoundaries ||
    (n.depth == 0 && (i.token.isKeyword boundaryKeywords || i.isSibling column))

/-- The nesting after `i` was passed over.  Outside all blocks, the keywords of bodies without
instructions open a block as well. -/
def Nesting.passOver (n : Nesting) (i : Item) (next : Option Item) : Nesting :=
  if n.depth == 0 && i.token.isKeyword [.kwDeferred, .kwExternal, .kwAttribute] then
    n.push .routineBody
  else n.feed i.token (next.map Item.token)

/-- Whether `i`, met at nesting `n`, closes the last open block. -/
def closesLast (n : Nesting) (i : Item) : Bool :=
  i.token.isKeyword [.kwEnd] && n.depth == 1

/-- The number of items passed over before reading resumes. -/
def skipLength (column : Option Int) (n : Nesting) : List Item → Nat
  | [] => 0
  | i :: is =>
    if resumesAt column n i then 0
    else if closesLast n i then 1
    else skipLength column (n.passOver i is.head?) is + 1

/-- The number of items passed over when `i` is passed over in any case. -/
def passLength (column : Option Int) (i : Item) (is : List Item) : Nat :=
  skipLength column (({} : Nesting).passOver i is.head?) is + 1

theorem passLength_pos (column : Option Int) (i : Item) (is : List Item) :
    0 < passLength column i is := by
  unfold passLength
  omega

/-- The number of items passed over from a cursor on.  An item at the cursor itself is no sibling
of the faulty declaration. -/
def Cursor.resumeLength (c : Cursor) (column : Option Int) : Nat :=
  match c.items with
  | [] => 0
  | i :: is => if resumesAt none {} i then 0 else passLength column i is

/-- What was read in spite of faults: the faults, and the tokens at which reading resumed. -/
structure Recovered (α : Type) where
  value : α
  taken : Nat
  errors : List SyntaxError
  resumed : List Token
deriving Repr

end ContractLint
