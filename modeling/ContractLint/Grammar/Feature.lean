/-
# Features

A declaration introduces one or more features of the same signature: a constant, an attribute or a
routine.  `readFeatures` reads declarations up to the next boundary keyword.  A declaration that
cannot be read costs one error and nothing else: reading resumes behind it, and the declarations
around it are kept.
-/
import ContractLint.Grammar.Resume
import ContractLint.Grammar.Routine

namespace ContractLint

/-! ## 1. The parts of a declaration -/

/-- The number of items of an operator alias at the cursor, if there is one. -/
def aliasLength (c : Cursor) : Except SyntaxError Nat :=
  if c.atKeyword [.kwAlias] then
    if c.next.atString then .ok (2 + (c.drop 2).optKeyword [.kwConvert])
    else c.next.fail .aliasWithoutOperator
  else .ok 0

/-- The names that a declaration introduces, each with whether it is frozen. -/
def readDeclared (c : Cursor) : Except SyntaxError (Taken (List (Name × Bool))) :=
  let frozen := c.optKeyword [.kwFrozen]
  let name := c.drop frozen
  if h : name.atIdentifier then
    have : 0 < name.size := Cursor.size_pos_of_test h
    match aliasLength name.next with
    | .error e => .error e
    | .ok k =>
      let declared := (name.peek.name, frozen == 1)
      if (c.drop (frozen + 1 + k)).atSymbol [.comma] then
        match readDeclared (c.drop (frozen + 1 + k + 1)) with
        | .ok names =>
          .ok { value := declared :: names.value, taken := frozen + 1 + k + 1 + names.taken }
        | .error e => .error e
      else .ok { value := [declared], taken := frozen + 1 + k }
  else name.fail (.expectedName .featureName name.peek)
termination_by c.size
decreasing_by
  simp only [name, Cursor.size_drop] at this ⊢
  omega

/-- The result type after the colon at the cursor, if there is one. -/
def readResult (c : Cursor) : Except SyntaxError (Option TypeRef × Nat) :=
  if c.atSymbol [.colon] then do
    let (type, n) ← readType c.next
    return (some type, 1 + n)
  else .ok (none, 0)

/-- The number of items of an assigner at the cursor, if there is one. -/
def assignerLength (c : Cursor) : Except SyntaxError Nat :=
  if c.atKeyword [.kwAssign] then
    if c.next.atIdentifier then .ok 2 else c.next.fail (.expectedName .assignerName c.next.peek)
  else .ok 0

/-- The texts of the comments that follow an item, on one line. -/
def Item.headerComment (i : Item) : Option String :=
  match (i.comments.map Token.commentText).filter (· != "") with
  | [] => none
  | texts => some (" ".intercalate texts)

/-- The number of items of an obsolete mark at the cursor, if there is one. -/
def obsoleteLength (c : Cursor) : Nat :=
  if c.atKeyword [.kwObsolete] then
    if c.next.atString then 2 else 1
  else 0

/-- Keywords that start the routine of a feature. -/
def routineKeywords : List Keyword :=
  [.kwRequire, .kwLocal, .kwDo, .kwOnce, .kwDeferred, .kwExternal, .kwAttribute]

/-- The number of items of a feature's note at the cursor, if there is one.  It has to end at a
routine or with the text. -/
def noteLength (c : Cursor) : Except SyntaxError Nat :=
  if c.atKeyword [.kwNote] then
    let inside := c.next.items.takeWhile fun i => !i.token.isKeyword routineKeywords
    match inside.find? fun i => i.token.isKeyword (.kwEnd :: clauseKeywords) with
    | some i => .error ⟨.noteWithoutBody, i.token.location⟩
    | none => .ok (1 + inside.length)
  else .ok 0

/-- Whether the routine of a feature starts at the cursor.  A `once` in front of a string starts
none. -/
def Cursor.atRoutine (c : Cursor) : Bool :=
  c.atKeyword (routineKeywords ++ [.kwObsolete, .kwNote]) &&
    !(c.atKeyword [.kwOnce] && c.next.atString)

/-- Whether a token may be the value of a constant. -/
def isConstant (t : Token) : Bool :=
  match t.kind with
  | .number | .string | .character | .numericEscape => true
  | .keyword .kwTrue | .keyword .kwFalse => true
  | _ => false

/-! ## 2. Declarations -/

/-- The features of one declaration, and the faults of the agents in them. -/
structure Declaration where
  features : List Feature
  errors : List SyntaxError := []
deriving DecidableEq, Repr, Inhabited

/-- What the names of a declaration have in common. -/
structure Signature where
  names : List (Name × Bool)
  parameters : List Entity
  returnType : Option TypeRef
deriving DecidableEq, Repr, Inhabited

namespace Signature

/-- Constants that end at the item `last`.  A constant has no arguments. -/
def constants (s : Signature) (last : Item) : Declaration :=
  { features := s.names.map fun (name, frozen) =>
      { name, frozen
        returnType := s.returnType
        headerComment := last.headerComment
        endLocation := last.token.location } }

/-- Attributes that end at the item `last`. -/
def attributes (s : Signature) (last : Item) : Declaration :=
  { features := s.names.map fun (name, frozen) =>
      { name, frozen
        parameters := s.parameters
        returnType := s.returnType
        headerComment := last.headerComment
        endLocation := last.token.location } }

/-- Routines whose signature ends at the item `last`. -/
def routines (s : Signature) (last : Item) (r : Routine) : Declaration :=
  let found := r.constructs
  { features := s.names.map fun (name, frozen) =>
      { name, frozen
        parameters := s.parameters
        returnType := s.returnType
        headerComment := last.headerComment
        precondition := r.precondition
        postcondition := r.postcondition
        locals := r.locals
        body := r.body
        agents := Construct.agents found
        quantifiers := Construct.quantifiers found
        innerBlocks := innerBlocks r.body.tokens
        endLocation := r.endLocation }
    errors := Construct.faults found }

end Signature

/-- Reads the signature at the cursor. -/
def readSignature (c : Cursor) : Except SyntaxError (Taken Signature) := do
  let names ← readDeclared c
  let (parameters, n₁) ← readArguments (c.drop names.taken)
  let (returnType, n₂) ← readResult (c.drop (names.taken + n₁))
  let n₃ ← assignerLength (c.drop (names.taken + n₁ + n₂))
  return {
    value := ⟨names.value, parameters, returnType⟩
    taken := names.taken + n₁ + n₂ + n₃
    taken_pos := by have := names.taken_pos; omega }

/-- Reads the value of a constant; `c` is behind the equals sign. -/
def readConstant (s : Signature) (c : Cursor) : Except SyntaxError (Taken Declaration) :=
  if s.returnType.isNone then c.fail .untypedConstant
  else
    let sign := c.optSymbol [.minus, .plus]
    let value := c.drop sign
    match value.items with
    | last :: _ =>
      if isConstant last.token then .ok { value := s.constants last, taken := sign + 1 }
      else value.fail (.expectedConstant value.peek)
    | [] => value.fail (.expectedConstant value.peek)

/-- Reads what follows a signature that is not a constant's.  `c` is behind the signature, whose
last item is `last`. -/
def readFeatureBody (s : Signature) (last : Item) (c : Cursor) :
    Except SyntaxError (Declaration × Nat) := do
  let n₁ := obsoleteLength c
  let n₂ ← noteLength (c.drop n₁)
  let rest := c.drop (n₁ + n₂)
  if rest.atRoutine then
    let routine ← readRoutine rest
    return (s.routines last routine.value, n₁ + n₂ + routine.taken)
  else if s.returnType.isNone then
    let name := (s.names.head?.map (·.1.text)).getD ""
    rest.fail (.bareFeature name rest.peek)
  else return (s.attributes last, n₁ + n₂)

/-- Reads the declaration whose first item is `first`, the one at the cursor. -/
def readDeclaration (first : Item) (c : Cursor) : Except SyntaxError (Taken Declaration) := do
  if !first.startsDeclaration then c.fail (.expectedFeature c.peek)
  else
    let signature ← readSignature c
    let rest := c.drop signature.taken
    if rest.atSymbol [.equal] then
      let declared ← readConstant signature.value rest.next
      return { value := declared.value, taken := signature.taken + 1 + declared.taken }
    else
      let n := signature.taken + rest.optKeyword [.kwIs]
      let last := (c.last? n).getD first
      let (declared, k) ← readFeatureBody signature.value last (c.drop n)
      return {
        value := declared
        taken := n + k
        taken_pos := by have := signature.taken_pos; omega }

/-! ## 3. Lists of declarations -/

/-- The declarations from the cursor up to the next boundary keyword. -/
def readFeatures (c : Cursor) : Recovered (List Feature) :=
  match h : c.items with
  | [] => ⟨[], 0, [], []⟩
  | i :: is =>
    have : 0 < c.size := by simp [Cursor.size, h]
    if i.token.isKeyword boundaryKeywords then ⟨[], 0, [], []⟩
    else match readDeclaration i c with
      | .ok d =>
        let rest := readFeatures (c.drop d.taken)
        ⟨d.value.features ++ rest.value, d.taken + rest.taken, d.value.errors ++ rest.errors,
          rest.resumed⟩
      | .error e =>
        let n := passLength (some i.token.column) i is
        let rest := readFeatures (c.drop n)
        ⟨rest.value, n + rest.taken, e :: rest.errors, (c.drop n).peek :: rest.resumed⟩
termination_by c.size
decreasing_by
  · exact Cursor.size_drop_taken_lt this d
  · have := passLength_pos (some i.token.column) i is
    simp only [Cursor.size_drop]
    omega

end ContractLint
