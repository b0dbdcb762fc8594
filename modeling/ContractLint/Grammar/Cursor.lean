/-
# Cursors

The grammar reads the significant tokens of a class text.  An `Item` is such a token with what the
grammar may ask about its surroundings: whether it starts a line, and which comments follow it.  A
`Cursor` is the rest of the items, with the token that ends the text.

Productions say how many items belong to what they read, and reading goes on at `Cursor.drop` of
that number.  So a cursor is always a tail of the text, and `size_drop` turns progress into
arithmetic: a production that takes at least one item (`Taken`) makes the cursor smaller.
-/
import ContractLint.Grammar.Fault
import ContractLint.Span.Nesting
import ContractLint.Token.Lexed
import ContractLint.Tree

namespace ContractLint

/-- A significant token and its surroundings. -/
structure Item where
  token : Token
  /-- Whether the token before, if there is one, starts on an earlier line. -/
  startsLine : Bool
  /-- The comments up to the next token that is neither comment nor indentation. -/
  comments : List Token
deriving DecidableEq, Repr, Inhabited

/-- Whether the grammar reads tokens of this kind. -/
def Kind.isItem : Kind → Bool
  | comment | indent | invalid | eof => false
  | _ => true

/-- The items of `ts`, with `prev` the item token before them. -/
def itemsAfter (prev : Option Token) : List Token → List Item
  | [] => []
  | t :: ts =>
    if t.kind.isItem then
      { token := t
        startsLine := prev.all (·.line < t.line)
        comments := (ts.takeWhile Token.isTrivia).filter (·.kind == .comment) } ::
          itemsAfter (some t) ts
    else itemsAfter prev ts

/-- The rest of a class text. -/
structure Cursor where
  items : List Item
  /-- The token at the end of the text. -/
  eof : Token
deriving DecidableEq, Repr, Inhabited

namespace Cursor

/-- A cursor at the start of a lexed text. -/
def ofLexed (x : Lexed) : Cursor :=
  ⟨itemsAfter none x.tokens, x.source.eof⟩

/-- The number of items left. -/
def size (c : Cursor) : Nat :=
  c.items.length

/-- The cursor `n` items further on. -/
def drop (c : Cursor) (n : Nat) : Cursor :=
  { c with items := c.items.drop n }

/-- The cursor one item further on. -/
def next (c : Cursor) : Cursor :=
  c.drop 1

@[simp] theorem size_drop (c : Cursor) (n : Nat) : (c.drop n).size = c.size - n := by
  simp [size, drop]

theorem drop_add (c : Cursor) (m n : Nat) : c.drop (m + n) = (c.drop m).drop n := by
  simp [drop]

/-- The next token, or the end of the text. -/
def peek (c : Cursor) : Token :=
  (c.items.head?.map Item.token).getD c.eof

/-- The tokens left. -/
def tokens (c : Cursor) : List Token :=
  c.items.map Item.token

/-- The next `n` tokens. -/
def take (c : Cursor) (n : Nat) : List Token :=
  (c.items.take n).map Item.token

/-- The last of the next `n` items. -/
def last? (c : Cursor) (n : Nat) : Option Item :=
  (c.items.take n).getLast?

/-- Whether there is a next token and it satisfies `p`. -/
def test (c : Cursor) (p : Token → Bool) : Bool :=
  c.items.head?.any fun i => p i.token

theorem size_pos_of_test {c : Cursor} {p : Token → Bool} (h : c.test p = true) : 0 < c.size := by
  unfold test at h
  unfold size
  cases hi : c.items with
  | nil => simp [hi] at h
  | cons i is => simp

/-- Whether no token is left. -/
def atEnd (c : Cursor) : Bool :=
  c.items.isEmpty

theorem size_pos_of_not_atEnd {c : Cursor} (h : ¬ c.atEnd = true) : 0 < c.size := by
  unfold atEnd at h
  unfold size
  cases hi : c.items with
  | nil => simp [hi] at h
  | cons i is => simp

/-- Whether the next token is one of the keywords `ws`. -/
def atKeyword (c : Cursor) (ws : List Keyword) : Bool :=
  c.test (·.isKeyword ws)

/-- Whether the next token is one of the symbols `ss`. -/
def atSymbol (c : Cursor) (ss : List Symbol) : Bool :=
  c.test (·.isSymbol ss)

/-- Whether the next token is an identifier. -/
def atIdentifier (c : Cursor) : Bool :=
  c.test Token.isIdentifier

/-- Whether the next token is a string. -/
def atString (c : Cursor) : Bool :=
  c.test Token.isString

/-- The number of items that an optional keyword takes. -/
def optKeyword (c : Cursor) (ws : List Keyword) : Nat :=
  if c.atKeyword ws then 1 else 0

/-- The number of items that an optional symbol takes. -/
def optSymbol (c : Cursor) (ss : List Symbol) : Nat :=
  if c.atSymbol ss then 1 else 0

/-- A fault noticed at the next token. -/
def fail {α : Type} (c : Cursor) (fault : SyntaxFault) : Except SyntaxError α :=
  .error ⟨fault, c.peek.location⟩

end Cursor

/-- What a production read, and the positive number of items that belong to it. -/
structure Taken (α : Type) where
  value : α
  taken : Nat
  taken_pos : 0 < taken := by omega

/-- Continuing after what was taken makes a nonempty cursor smaller. -/
theorem Cursor.size_drop_taken_lt {α : Type} {c : Cursor} (hc : 0 < c.size) (x : Taken α) :
    (c.drop x.taken).size < c.size := by
  have := x.taken_pos
  simp only [size_drop]
  omega

/-! ## Keywords with a role at class level -/

/-- Keywords that start a clause of a class. -/
def clauseKeywords : List Keyword :=
  [.kwFeature, .kwCreate, .kwConvert, .kwInherit, .kwInvariant]

/-- Keywords that may mark a class. -/
def classMarks : List Keyword :=
  [.kwDeferred, .kwExpanded, .kwFrozen, .kwOnce, .kwSeparate]

/-- Keywords that end whatever comes before them in a class: those of clauses, and `end` and
`note`. -/
def boundaryKeywords : List Keyword :=
  clauseKeywords ++ [.kwEnd, .kwNote]

/-! ## Passing over brackets -/

/-- The number of items up to the bracket that closes the first one, or up to the end of the text;
`depth` brackets are open. -/
def bracketLengthFrom (depth : Nat) : List Item → Nat
  | [] => 0
  | i :: is =>
    if i.token.isSymbol [.openBracket] then bracketLengthFrom (depth + 1) is + 1
    else if i.token.isSymbol [.closeBracket] then
      if depth ≤ 1 then 1 else bracketLengthFrom (depth - 1) is + 1
    else bracketLengthFrom depth is + 1

/-- The number of items in the square brackets at the cursor, if there are any. -/
def Cursor.bracketLength (c : Cursor) : Nat :=
  if c.atSymbol [.openBracket] then bracketLengthFrom 0 c.items else 0

/-- The tokens between the opening symbol at the cursor and the first `close`, and the number of
items with both symbols.  Without a `close` they reach up to the end of the text. -/
def Cursor.enclosed (c : Cursor) (close : Symbol) : List Token × Nat :=
  let inside := c.next.items.takeWhile fun i => !i.token.isSymbol [close]
  let after := c.next.drop inside.length
  (inside.map Item.token, 1 + inside.length + after.optSymbol [close])

end ContractLint
