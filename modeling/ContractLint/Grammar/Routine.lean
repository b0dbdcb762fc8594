/-
# Routines

A routine is an optional precondition, optional locals, a body, an optional postcondition, an
optional rescue and `end`.  Bodies are spans.  The agents and quantifiers of a routine are those of
its body, statement by statement, then those of its precondition and of its postcondition.
-/
import ContractLint.Grammar.Assertion
import ContractLint.Grammar.Type

namespace ContractLint

/-- The keywords that end a routine body. -/
def bodyStops : List Keyword :=
  [.kwEnsure, .kwRescue, .kwEnd]

/-- The number of items of the body span at the cursor. -/
def Cursor.bodyLength (c : Cursor) : Nat :=
  spanLength bodyStops [.kwFeature] c.tokens

/-- The keys of a once body in the parentheses at the cursor, if there are any. -/
def readOnceKeys (c : Cursor) : List (List CodePoint) × Nat :=
  if c.atSymbol [.openParen] then
    let (inside, n) := c.enclosed .closeParen
    ((inside.filter Token.isString).map Token.value, n)
  else ([], 0)

/-- Reads the rest of an external body, a language and an alias that may be missing; `c` is behind
the keyword. -/
def externalLength (c : Cursor) : Except SyntaxError Nat :=
  if c.atString then
    if c.next.atKeyword [.kwAlias] then
      if (c.drop 2).atString then .ok 3 else (c.drop 2).fail .aliasWithoutString
    else .ok 1
  else c.fail .externalWithoutLanguage

/-- Reads the body at the cursor. -/
def readBody (c : Cursor) : Except SyntaxError (Taken Body) :=
  if c.atKeyword [.kwDo] then
    let n := c.next.bodyLength
    .ok { value := .instructions (c.next.take n), taken := 1 + n }
  else if c.atKeyword [.kwOnce] then
    let (keys, k) := readOnceKeys c.next
    let span := c.drop (1 + k)
    let n := span.bodyLength
    .ok { value := .once keys (span.take n), taken := 1 + k + n }
  else if c.atKeyword [.kwAttribute] then
    let n := c.next.bodyLength
    .ok { value := .attributive (c.next.take n), taken := 1 + n }
  else if c.atKeyword [.kwDeferred] then .ok { value := .deferred, taken := 1 }
  else if c.atKeyword [.kwExternal] then
    match externalLength c.next with
    | .ok n => .ok { value := .external, taken := 1 + n }
    | .error e => .error e
  else c.fail (.expectedBody c.peek)

/-- What the body at the cursor reads as: a case for each keyword of a body. -/
inductive BodyReading (c : Cursor) : Taken Body → Prop
  | instructions (hat : c.atKeyword [.kwDo] = true) :
      BodyReading c
        { value := .instructions (c.next.take c.next.bodyLength), taken := 1 + c.next.bodyLength }
  | once {keys : List (List CodePoint)} {k : Nat} (hat : c.atKeyword [.kwOnce] = true)
      (hkeys : readOnceKeys c.next = (keys, k)) :
      BodyReading c
        { value := .once keys ((c.drop (1 + k)).take (c.drop (1 + k)).bodyLength)
          taken := 1 + k + (c.drop (1 + k)).bodyLength }
  | attributive (hat : c.atKeyword [.kwAttribute] = true) :
      BodyReading c
        { value := .attributive (c.next.take c.next.bodyLength), taken := 1 + c.next.bodyLength }
  | deferred (hat : c.atKeyword [.kwDeferred] = true) :
      BodyReading c { value := .deferred, taken := 1 }
  | external {n : Nat} (hat : c.atKeyword [.kwExternal] = true)
      (hn : externalLength c.next = .ok n) :
      BodyReading c { value := .external, taken := 1 + n }

/-- **Reading a body** is one of the cases of `BodyReading`. -/
theorem readBody_cases {c : Cursor} {body : Taken Body} (h : readBody c = .ok body) :
    BodyReading c body := by
  unfold readBody at h
  split at h
  · cases h
    exact .instructions ‹_›
  split at h
  · cases h
    exact .once ‹_› rfl
  split at h
  · cases h
    exact .attributive ‹_›
  split at h
  · cases h
    exact .deferred ‹_›
  split at h
  · split at h
    · cases h
      exact .external ‹_› ‹_›
    · cases h
  · cases h

/-- Reads the block whose keyword may be at the cursor, and the number of its items. -/
def readBlock? (g : BlockGrammar) (keyword : Keyword) (c : Cursor) :
    Option AssertionBlock × Nat :=
  if c.atKeyword [keyword] then
    let block := readBlock g c
    (some block.value, block.taken)
  else (none, 0)

/-- The number of items of a rescue at the cursor, if there is one. -/
def rescueLength (c : Cursor) : Nat :=
  if c.atKeyword [.kwRescue] then 1 + c.next.bodyLength else 0

/-- What a routine adds to a feature. -/
structure Routine where
  precondition : Option AssertionBlock
  locals : List Entity
  body : Body
  postcondition : Option AssertionBlock
  endLocation : Location
deriving DecidableEq, Repr, Inhabited

/-- The agents and quantifiers of a routine, in the order in which they are looked for. -/
def Routine.constructs (r : Routine) : List Construct :=
  (statements r.body.tokens).flatMap ContractLint.constructs ++
    r.precondition.toList.flatMap AssertionBlock.constructs ++
    r.postcondition.toList.flatMap AssertionBlock.constructs

/-- Reads the routine at the cursor. -/
def readRoutine (c : Cursor) : Except SyntaxError (Taken Routine) := do
  let (precondition, n₁) := readBlock? .precondition .kwRequire c
  let (locals, n₂) ← readLocals (c.drop n₁)
  let body ← readBody (c.drop (n₁ + n₂))
  let n₃ := n₁ + n₂ + body.taken
  let (postcondition, n₄) := readBlock? .postcondition .kwEnsure (c.drop n₃)
  let n₅ := rescueLength (c.drop (n₃ + n₄))
  let last := c.drop (n₃ + n₄ + n₅)
  if last.atKeyword [.kwEnd] then
    let routine := ⟨precondition, locals, body.value, postcondition, last.peek.location⟩
    return { value := routine, taken := n₃ + n₄ + n₅ + 1 }
  else last.fail (.expectedKeyword .kwEnd last.peek)

end ContractLint
