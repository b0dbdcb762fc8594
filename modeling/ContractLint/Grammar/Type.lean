/-
# Types and entity declarations

A type is an optional mark and either an anchor (`like` something) or a name with its actual
generics.  Arguments and locals are declared in groups, names separated by commas and a type.
-/
import ContractLint.Grammar.Cursor

namespace ContractLint

/-- The mark at the cursor and the number of items it takes. -/
def readTypeMark (c : Cursor) : TypeMark × Nat :=
  if c.atKeyword [.kwAttached] || c.atSymbol [.bang] then (.attached, 1)
  else if c.atKeyword [.kwDetachable] || c.atSymbol [.question] then (.detachable, 1)
  else (.unmarked, 0)

/-- The number of items in a run of dots with an identifier after each. -/
def qualifierLength : List Item → Nat
  | d :: i :: rest =>
    if d.token.isSymbol [.dot] && i.token.isIdentifier then qualifierLength rest + 2 else 0
  | _ => 0

/-- The number of items of the type at the cursor, its mark left off. -/
def typeLength (c : Cursor) : Except SyntaxError Nat :=
  if c.atKeyword [.kwLike] then
    if c.next.atIdentifier || c.next.atKeyword [.kwCurrent] then
      .ok (2 + qualifierLength (c.drop 2).items)
    else c.next.fail (.expectedAnchor c.next.peek)
  else if c.atIdentifier || c.atKeyword [.kwTuple] then .ok (1 + c.next.bracketLength)
  else c.fail (.expectedType c.peek)

/-- Reads the type at the cursor; the result holds the type and the number of its items. -/
def readType (c : Cursor) : Except SyntaxError (TypeRef × Nat) := do
  let (mark, marks) := readTypeMark c
  let separate := (c.drop marks).optKeyword [.kwSeparate]
  let frozen := (c.drop (marks + separate)).optKeyword [.kwFrozen]
  let skipped := marks + separate + frozen
  let core := c.drop skipped
  let n ← typeLength core
  return (⟨renderTokens (core.take n), mark, c.peek.location⟩, skipped + n)

/-- The identifiers, separated by commas, at the cursor; with the commas they take one item less
than twice their number. -/
def readNames (role : NameRole) (c : Cursor) : Except SyntaxError (List Name) :=
  if h : c.atIdentifier then
    have : 0 < c.size := Cursor.size_pos_of_test h
    if c.next.atSymbol [.comma] then
      match readNames role (c.drop 2) with
      | .ok names => .ok (c.peek.name :: names)
      | .error e => .error e
    else .ok [c.peek.name]
  else c.fail (.expectedName role c.peek)
termination_by c.size
decreasing_by
  simp only [Cursor.size_drop]
  omega

/-- Reads a group of entities at the cursor: names, a colon, a type, and a semicolon that may be
missing. -/
def readEntities (role : NameRole) (c : Cursor) : Except SyntaxError (Taken (List Entity)) := do
  let names ← readNames role c
  let n := 2 * names.length - 1
  let colon := c.drop n
  if colon.atSymbol [.colon] then
    let (type, k) ← readType colon.next
    let semicolon := (c.drop (n + 1 + k)).optSymbol [.semicolon]
    return { value := names.map (⟨·, type⟩), taken := n + 1 + k + semicolon }
  else colon.fail (.expectedSymbol .colon colon.peek)

/-- The groups of formal arguments up to the closing parenthesis, and the number of their items. -/
def readArgumentGroups (c : Cursor) : Except SyntaxError (List Entity × Nat) :=
  if c.atSymbol [.closeParen] then .ok ([], 0)
  else if h : c.atIdentifier then do
    have : 0 < c.size := Cursor.size_pos_of_test h
    let group ← readEntities .argumentName c
    let (entities, n) ← readArgumentGroups (c.drop group.taken)
    return (group.value ++ entities, group.taken + n)
  else c.fail (.expectedName .argumentName c.peek)
termination_by c.size
decreasing_by exact Cursor.size_drop_taken_lt this group

/-- The formal arguments in the parentheses at the cursor, if there are any. -/
def readArguments (c : Cursor) : Except SyntaxError (List Entity × Nat) :=
  if c.atSymbol [.openParen] then do
    let (entities, n) ← readArgumentGroups c.next
    return (entities, 1 + n + 1)
  else .ok ([], 0)

/-- The groups of local variables at the cursor, and the number of their items. -/
def readLocalGroups (c : Cursor) : Except SyntaxError (List Entity × Nat) :=
  if h : c.atIdentifier then do
    have : 0 < c.size := Cursor.size_pos_of_test h
    let group ← readEntities .localName c
    let (entities, n) ← readLocalGroups (c.drop group.taken)
    return (group.value ++ entities, group.taken + n)
  else .ok ([], 0)
termination_by c.size
decreasing_by exact Cursor.size_drop_taken_lt this group

/-- The local variables after the keyword at the cursor, if it is there. -/
def readLocals (c : Cursor) : Except SyntaxError (List Entity × Nat) :=
  if c.atKeyword [.kwLocal] then do
    let (entities, n) ← readLocalGroups c.next
    return (entities, 1 + n)
  else .ok ([], 0)

end ContractLint
