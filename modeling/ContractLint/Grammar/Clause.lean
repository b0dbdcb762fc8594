/-
# Clauses of a class

What stands between the header of a class and its `end`: clauses for inheritance, creation,
conversion, features, the invariant and notes, in any order, and declarations outside any clause.
`readParts` reads them all.  A clause that cannot be read costs one error, and every step takes at
least one item (`readPart_taken_pos`), so the whole text is read in one pass.
-/
import ContractLint.Grammar.Feature
import ContractLint.Grammar.Header

namespace ContractLint

/-! ## 1. Inheritance and creation -/

/-- The clients in the braces at the cursor, if there are any. -/
def readClients (c : Cursor) : List String × Nat :=
  if c.atSymbol [.openBrace] then
    let (inside, n) := c.enclosed .closeBrace
    ((inside.filter Token.isIdentifier).map Token.text, n)
  else ([], 0)

/-- Keywords that start the adaptation of a parent. -/
def adaptationKeywords : List Keyword :=
  [.kwRename, .kwExport, .kwUndefine, .kwRedefine, .kwSelect]

/-- The number of items of a parent's adaptation at the cursor, if there is one. -/
def adaptationLength (c : Cursor) : Except SyntaxError Nat :=
  if c.atKeyword adaptationKeywords then
    let inside := c.items.takeWhile fun i => !i.token.isKeyword [.kwEnd]
    match inside.find? fun i => i.startsLine && i.token.isKeyword clauseKeywords with
    | some i => .error ⟨.openAdaptation, i.token.location⟩
    | none =>
      let last := c.drop inside.length
      if last.atKeyword [.kwEnd] then .ok (inside.length + 1)
      else last.fail (.expectedKeyword .kwEnd last.peek)
  else .ok 0

/-- The parents from the cursor up to the next boundary keyword, and the number of their items. -/
def readParents (c : Cursor) : Except SyntaxError (List Name × Nat) :=
  if h : c.atEnd then .ok ([], 0)
  else
    have : 0 < c.size := Cursor.size_pos_of_not_atEnd h
    if c.atIdentifier || c.atKeyword [.kwTuple] then do
      let n := 1 + c.next.bracketLength
      let k ← adaptationLength (c.drop n)
      let (parents, m) ← readParents (c.drop (n + k))
      return (c.peek.name :: parents, n + k + m)
    else if c.atSymbol [.semicolon] then do
      let (parents, m) ← readParents c.next
      return (parents, 1 + m)
    else if c.atKeyword boundaryKeywords then .ok ([], 0)
    else c.fail (.unexpectedInInheritance c.peek)
termination_by c.size
decreasing_by
  · simp only [Cursor.size_drop]; omega
  · simp only [Cursor.next, Cursor.size_drop]; omega

/-- The names of creation procedures at the cursor, separated by commas, and the number of their
items. -/
def readCreators (c : Cursor) : Except SyntaxError (List Name × Nat) :=
  if h : c.atIdentifier then
    have : 0 < c.size := Cursor.size_pos_of_test h
    if c.next.atSymbol [.comma] then
      if (c.drop 2).atIdentifier then
        match readCreators (c.drop 2) with
        | .ok (names, n) => .ok (c.peek.name :: names, 2 + n)
        | .error e => .error e
      else (c.drop 2).fail .missingCreator
    else .ok ([c.peek.name], 1)
  else .ok ([], 0)
termination_by c.size
decreasing_by
  simp only [Cursor.size_drop]
  omega

/-! ## 2. Clauses -/

/-- A part of a class. -/
inductive Part where
  | parents (names : List Name)
  | creators (names : List Name)
  | clause (clause : Clause)
  | invariant (invariant : Invariant)
  /-- A clause that the tree does not keep. -/
  | skipped
deriving Repr, Inhabited

/-- Reads the names of an inheritance or creation clause whose keyword is at the cursor. -/
def readNameClause (readList : Cursor → Except SyntaxError (List Name × Nat)) (c : Cursor) :
    Except SyntaxError (Taken (List Name)) := do
  let (_, n) := readClients c.next
  let (names, k) ← readList (c.drop (1 + n))
  return { value := names, taken := 1 + n + k }

/-- The category of a clause whose header ends at the item `last`: the first comment after it, on
the same line. -/
def Item.category? (last : Item) : Option String :=
  match last.comments with
  | t :: _ => if t.line == last.token.line then some t.commentText else none
  | [] => none

/-- Reads the feature clause whose keyword is at the cursor. -/
def readFeatureClause (c : Cursor) : Recovered Clause :=
  let (clients, n) := readClients c.next
  let features := readFeatures (c.drop (1 + n))
  { value :=
      { kind := .explicit
        location := c.peek.location
        category := (c.last? (1 + n)).bind Item.category?
        clients := clients
        features := features.value }
    taken := 1 + n + features.taken
    errors := features.errors
    resumed := features.resumed }

/-- Reads declarations at the cursor where a clause was expected. -/
def readLooseFeatures (c : Cursor) : Recovered Clause :=
  let features := readFeatures c
  { value := { kind := .implicit, location := c.peek.location, features := features.value }
    taken := features.taken
    errors := features.errors
    resumed := features.resumed }

/-- Reads the invariant whose keyword is at the cursor, and the faults of the agents in it. -/
def readInvariant (c : Cursor) : Taken (Invariant × List SyntaxError) :=
  let block := readBlock .classInvariant c
  let found := block.value.constructs
  { value := (⟨block.value, Construct.agents found, Construct.quantifiers found⟩,
      Construct.faults found)
    taken := block.taken
    taken_pos := block.taken_pos }

/-- The number of items of a conversion clause whose keyword is at the cursor. -/
def conversionLength (c : Cursor) : Nat :=
  1 + (c.next.items.takeWhile fun i => !i.token.isKeyword boundaryKeywords).length

/-- The part that was read, or what is left of it after a fault at `c`: nothing but the error, and
reading resumes `n` items further on. -/
def recover (c : Cursor) (n : Nat) (e : SyntaxError) : Recovered Part :=
  ⟨.skipped, n, [e], [(c.drop n).peek]⟩

/-- Reads the clause that starts with the item `i` at the cursor, with `is` after it. -/
def readPart (i : Item) (is : List Item) (c : Cursor) : Recovered Part :=
  let resumeBehind (e : SyntaxError) := recover c (1 + c.next.resumeLength none) e
  if i.token.isKeyword [.kwInherit] then
    match readNameClause readParents c with
    | .ok names => ⟨.parents names.value, names.taken, [], []⟩
    | .error e => resumeBehind e
  else if i.token.isKeyword [.kwCreate] then
    match readNameClause readCreators c with
    | .ok names => ⟨.creators names.value, names.taken, [], []⟩
    | .error e => resumeBehind e
  else if i.token.isKeyword [.kwConvert] then ⟨.skipped, conversionLength c, [], []⟩
  else if i.token.isKeyword [.kwFeature] then
    let r := readFeatureClause c
    { r with value := .clause r.value }
  else if i.token.isKeyword [.kwInvariant] then
    let r := readInvariant c
    ⟨.invariant r.value.1, r.taken, r.value.2, []⟩
  else if i.token.isKeyword [.kwNote] then ⟨.skipped, classNoteLength c, [], []⟩
  else if i.startsDeclaration then
    let r := readLooseFeatures c
    { r with value := .clause r.value }
  else recover c (passLength none i is) ⟨.unexpectedInClass i.token, i.token.location⟩

/-- A list of declarations that starts with something other than a boundary takes an item. -/
theorem readFeatures_taken_pos {c : Cursor} {i : Item} {is : List Item} (hc : c.items = i :: is)
    (hi : i.token.isKeyword boundaryKeywords = false) : 0 < (readFeatures c).taken := by
  rw [readFeatures]
  split
  · simp_all
  · rename_i j js h
    obtain ⟨rfl, rfl⟩ : i = j ∧ is = js := by simpa [hc] using h
    simp only [hi, Bool.false_eq_true, if_false]
    split
    · rename_i d _
      exact Nat.add_pos_left d.taken_pos _
    · exact Nat.add_pos_left (passLength_pos _ _ _) _

theorem not_boundary_of_startsDeclaration {i : Item} (h : i.startsDeclaration = true) :
    i.token.isKeyword boundaryKeywords = false := by
  unfold Item.startsDeclaration Token.isIdentifier at h
  unfold Token.isKeyword at h ⊢
  cases hk : i.token.kind with
  | keyword w =>
    have hw : w = .kwFrozen := by simpa [hk, Token.isKeyword] using h
    subst hw
    rfl
  | _ => rfl

/-- What the part that starts with the item `i` at the cursor reads as: a case for each kind of part,
and for each way to fail. -/
inductive PartReading (i : Item) (is : List Item) (c : Cursor) : Recovered Part → Prop
  | parents {names : Taken (List Name)} (hi : i.token.isKeyword [.kwInherit] = true)
      (hnames : readNameClause readParents c = .ok names) :
      PartReading i is c ⟨.parents names.value, names.taken, [], []⟩
  | faultyParents {e : SyntaxError} (hi : i.token.isKeyword [.kwInherit] = true)
      (he : readNameClause readParents c = .error e) :
      PartReading i is c (recover c (1 + c.next.resumeLength none) e)
  | creators {names : Taken (List Name)} (hi : i.token.isKeyword [.kwCreate] = true)
      (hnames : readNameClause readCreators c = .ok names) :
      PartReading i is c ⟨.creators names.value, names.taken, [], []⟩
  | faultyCreators {e : SyntaxError} (hi : i.token.isKeyword [.kwCreate] = true)
      (he : readNameClause readCreators c = .error e) :
      PartReading i is c (recover c (1 + c.next.resumeLength none) e)
  | conversion (hi : i.token.isKeyword [.kwConvert] = true) :
      PartReading i is c ⟨.skipped, conversionLength c, [], []⟩
  | features (hi : i.token.isKeyword [.kwFeature] = true) :
      PartReading i is c
        { readFeatureClause c with value := .clause (readFeatureClause c).value }
  | invariant (hi : i.token.isKeyword [.kwInvariant] = true) :
      PartReading i is c
        ⟨.invariant (readInvariant c).value.1, (readInvariant c).taken, (readInvariant c).value.2, []⟩
  | note (hi : i.token.isKeyword [.kwNote] = true) :
      PartReading i is c ⟨.skipped, classNoteLength c, [], []⟩
  | loose (hi : i.startsDeclaration = true) :
      PartReading i is c
        { readLooseFeatures c with value := .clause (readLooseFeatures c).value }
  | unexpected (hi : i.token.isKeyword (clauseKeywords ++ [.kwNote]) = false)
      (hloose : i.startsDeclaration = false) :
      PartReading i is c
        (recover c (passLength none i is) ⟨.unexpectedInClass i.token, i.token.location⟩)

/-- **Reading a part** is one of the cases of `PartReading`. -/
theorem readPart_cases {i : Item} {is : List Item} {c : Cursor} {r : Recovered Part}
    (h : readPart i is c = r) : PartReading i is c r := by
  subst h
  unfold readPart
  dsimp only
  split
  · split
    · exact .parents ‹_› ‹_›
    · exact .faultyParents ‹_› ‹_›
  split
  · split
    · exact .creators ‹_› ‹_›
    · exact .faultyCreators ‹_› ‹_›
  split
  · exact .conversion ‹_›
  split
  · exact .features ‹_›
  split
  · exact .invariant ‹_›
  split
  · exact .note ‹_›
  split
  · exact .loose ‹_›
  · refine .unexpected ?_ (Bool.eq_false_iff.mpr ‹_›)
    cases hk : i.token.kind with
    | keyword w => simp_all [Token.isKeyword, clauseKeywords]
    | _ => simp [Token.isKeyword, hk]

/-- Reading a part takes at least one item. -/
theorem readPart_taken_pos {c : Cursor} {i : Item} {is : List Item} (hc : c.items = i :: is) :
    0 < (readPart i is c).taken := by
  generalize hr : readPart i is c = r
  cases readPart_cases hr with
  | parents | creators | invariant => exact Taken.taken_pos _
  | features => exact Nat.lt_of_lt_of_le (Nat.lt_add_right _ Nat.one_pos) (Nat.le_add_right _ _)
  | faultyParents | faultyCreators | conversion | note => exact Nat.lt_add_right _ Nat.one_pos
  | loose hi => exact readFeatures_taken_pos hc (not_boundary_of_startsDeclaration hi)
  | unexpected => exact passLength_pos none i is

/-- The clauses from the cursor up to the `end` of the class or the end of the text. -/
def readParts (c : Cursor) : Recovered (List Part) :=
  match h : c.items with
  | [] => ⟨[], 0, [], []⟩
  | i :: is =>
    if i.token.isKeyword [.kwEnd] then ⟨[], 0, [], []⟩
    else
      have : 0 < c.size := by simp [Cursor.size, h]
      have : 0 < (readPart i is c).taken := readPart_taken_pos h
      let part := readPart i is c
      let rest := readParts (c.drop part.taken)
      ⟨part.value :: rest.value, part.taken + rest.taken, part.errors ++ rest.errors,
        part.resumed ++ rest.resumed⟩
termination_by c.size
decreasing_by
  simp only [Cursor.size_drop]
  omega

end ContractLint
