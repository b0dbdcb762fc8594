/-
# The tree of a class text

What the grammar recovers of one class: its names, clauses, features and assertions.  Routine
bodies and assertion expressions stay runs of tokens; only agents, quantifiers, loop invariants
and checks are picked out of them.  A node holds what cannot be computed from its other parts: a
feature is located at its name, an assertion has the kind of its block, and an argument is open
exactly when it is the marker alone.
-/
import ContractLint.Text.Lowercase
import ContractLint.Token

namespace ContractLint

/-! ## 1. Names, types and entities -/

/-- An identifier as it is written. -/
structure Name where
  text : String
  location : Location
deriving DecidableEq, Repr, Inhabited

/-- The name that a token spells. -/
def Token.name (t : Token) : Name :=
  ⟨t.text, t.location⟩

/-- Whether a type excludes the void reference. -/
inductive TypeMark where
  | unmarked
  | attached
  | detachable
deriving DecidableEq, Repr, Inhabited

/-- A type as it is written, without its mark. -/
structure TypeRef where
  text : String
  mark : TypeMark
  location : Location
deriving DecidableEq, Repr, Inhabited

/-- The type with its mark spelled out. -/
def TypeRef.shown (t : TypeRef) : String :=
  match t.mark with
  | .unmarked => t.text
  | .attached => s!"attached {t.text}"
  | .detachable => s!"detachable {t.text}"

/-- A formal argument or a local variable. -/
structure Entity where
  name : Name
  type : TypeRef
deriving DecidableEq, Repr, Inhabited

/-! ## 2. Assertions -/

/-- Where assertions stand. -/
inductive AssertionKind where
  | precondition
  | postcondition
  | classInvariant
  | loopInvariant
  | check
deriving DecidableEq, Repr, Inhabited

/-- The kind's name in messages. -/
def AssertionKind.label : AssertionKind → String
  | precondition => "precondition"
  | postcondition => "postcondition"
  | classInvariant => "invariant"
  | loopInvariant => "loop-invariant"
  | check => "check"

/-- One assertion; the label and its colon are not part of the expression. -/
structure Assertion where
  label : Option String
  expression : List Token
  location : Location
deriving DecidableEq, Repr, Inhabited

/-- The expression on one line, a space between two tokens. -/
def Assertion.expressionText (a : Assertion) : String :=
  " ".intercalate (a.expression.map Token.text)

/-- The assertions after one keyword. -/
structure AssertionBlock where
  kind : AssertionKind
  location : Location
  assertions : List Assertion
  /-- Whether the block extends an inherited one (`require else`, `ensure then`). -/
  extended : Bool := false
deriving DecidableEq, Repr, Inhabited

/-! ## 3. Agents and quantifiers -/

/-- What an agent's feature is applied to. -/
inductive Target where
  /-- The current object, not written. -/
  | implicit
  /-- An expression fixed when the agent is made. -/
  | closed (text : String)
  /-- An object of a type, given when the agent is called. -/
  | ofType (text : String)
deriving DecidableEq, Repr, Inhabited

/-- One argument of an agent. -/
structure AgentArgument where
  tokens : List Token
  location : Location
deriving DecidableEq, Repr, Inhabited

namespace AgentArgument

/-- Whether the argument is left to the call: it is the open marker alone. -/
def isOpen (a : AgentArgument) : Bool :=
  match a.tokens with
  | [t] => t.isSymbol [.question]
  | _ => false

/-- Whether an open marker stands among other tokens. -/
def hasStrayMarker (a : AgentArgument) : Bool :=
  !a.isOpen && a.tokens.any (·.isSymbol [.question])

end AgentArgument

/-- An agent: a routine as a value. -/
inductive Agent where
  /-- The routine is written in place. -/
  | inline (location : Location)
  /-- The routine is a feature.  Without an argument list every argument is open. -/
  | call (location : Location) (target : Target) (feature : String)
      (arguments : Option (List AgentArgument))
deriving DecidableEq, Repr, Inhabited

/-- The location of the agent's keyword. -/
def Agent.location : Agent → Location
  | inline l => l
  | call l _ _ _ => l

/-- The two quantifiers. -/
inductive Quantity where
  | forAll
  | thereExists
deriving DecidableEq, Repr, Inhabited

namespace Quantity

/-- The quantifier that a symbol stands for. -/
def ofSymbol? : Symbol → Option Quantity
  | .forAll => some forAll
  | .thereExists => some thereExists
  | _ => none

/-- The quantifier's symbol. -/
def symbol : Quantity → Symbol
  | forAll => .forAll
  | thereExists => .thereExists

end Quantity

/-- A quantification over the elements of a domain. -/
structure Quantifier where
  location : Location
  quantity : Quantity
  cursor : Option Name
  /-- Whether a colon separates the cursor from the domain. -/
  hasColon : Bool
  /-- Whether a broken bar separates the domain from the body. -/
  hasBar : Bool
deriving DecidableEq, Repr, Inhabited

/-- Whether cursor, colon and bar are all there. -/
def Quantifier.isWellFormed (q : Quantifier) : Bool :=
  q.cursor.isSome && q.hasColon && q.hasBar

/-! ## 4. Features -/

/-- How a feature gets its meaning. -/
inductive Body where
  /-- A plain attribute or a constant. -/
  | absent
  | instructions (tokens : List Token)
  /-- Instructions that run once per key. -/
  | once (keys : List (List CodePoint)) (tokens : List Token)
  | deferred
  | external
  /-- An attribute with instructions for its first access. -/
  | attributive (tokens : List Token)
deriving DecidableEq, Repr, Inhabited

namespace Body

/-- The instructions. -/
def tokens : Body → List Token
  | instructions ts | once _ ts | attributive ts => ts
  | _ => []

/-- The keys of a once body. -/
def keys : Body → List (List CodePoint)
  | once ks _ => ks
  | _ => []

/-- The body's name in listings. -/
def label : Body → String
  | absent => "none"
  | instructions _ => "do"
  | once _ _ => "once"
  | deferred => "deferred"
  | external => "external"
  | attributive _ => "attribute"

/-- Whether the body makes the feature a routine. -/
def isRoutine : Body → Bool
  | instructions _ | once _ _ | deferred | external => true
  | _ => false

/-- Whether the body holds instructions. -/
def hasInstructions : Body → Bool
  | instructions _ | once _ _ | attributive _ => true
  | _ => false

end Body

/-- A feature of a class. -/
structure Feature where
  name : Name
  frozen : Bool := false
  parameters : List Entity := []
  returnType : Option TypeRef := none
  headerComment : Option String := none
  precondition : Option AssertionBlock := none
  postcondition : Option AssertionBlock := none
  locals : List Entity := []
  body : Body := .absent
  agents : List Agent := []
  quantifiers : List Quantifier := []
  /-- Loop invariants and checks of the body, in order. -/
  innerBlocks : List AssertionBlock := []
  endLocation : Location
deriving DecidableEq, Repr, Inhabited

namespace Feature

/-- Whether the feature returns a value. -/
def isQuery (f : Feature) : Bool :=
  f.returnType.isSome

/-- Whether the feature returns no value. -/
def isCommand (f : Feature) : Bool :=
  f.returnType.isNone

/-- Whether the feature is computed. -/
def isRoutine (f : Feature) : Bool :=
  f.body.isRoutine

/-- Whether the feature is stored. -/
def isAttribute (f : Feature) : Bool :=
  f.isQuery && !f.isRoutine

/-- Whether the feature runs once. -/
def isOnce (f : Feature) : Bool :=
  match f.body with
  | .once _ _ => true
  | _ => false

/-- Whether a precondition or postcondition states anything. -/
def hasContract (f : Feature) : Bool :=
  f.precondition.any (!·.assertions.isEmpty) || f.postcondition.any (!·.assertions.isEmpty)

/-- The assertion blocks of the feature. -/
def blocks (f : Feature) : List AssertionBlock :=
  f.precondition.toList ++ f.postcondition.toList ++ f.innerBlocks

/-- The loop invariants of the body. -/
def loopInvariants (f : Feature) : List AssertionBlock :=
  f.innerBlocks.filter (·.kind == .loopInvariant)

/-- The checks of the body. -/
def checks (f : Feature) : List AssertionBlock :=
  f.innerBlocks.filter (·.kind == .check)

end Feature

/-! ## 5. Classes -/

/-- How a group of features was introduced. -/
inductive ClauseKind where
  /-- By the keyword of a feature clause. -/
  | explicit
  /-- By declarations where a clause was expected. -/
  | implicit
deriving DecidableEq, Repr, Inhabited

/-- The kind's name in listings. -/
def ClauseKind.label : ClauseKind → String
  | explicit => "explicit"
  | implicit => "implicit"

/-- A group of features. -/
structure Clause where
  kind : ClauseKind
  location : Location
  /-- The comment after the clause's keyword. -/
  category : Option String := none
  clients : List String := []
  features : List Feature
deriving DecidableEq, Repr, Inhabited

/-- The invariant of a class. -/
structure Invariant where
  block : AssertionBlock
  agents : List Agent
  quantifiers : List Quantifier
deriving DecidableEq, Repr, Inhabited

/-- What kind of class it is. -/
inductive ClassKind where
  | ordinary
  | once
  | deferred
  | expanded
deriving DecidableEq, Repr, Inhabited

/-- The kind's name in listings. -/
def ClassKind.label : ClassKind → String
  | ordinary => "ordinary"
  | once => "once"
  | deferred => "deferred"
  | expanded => "expanded"

/-- A class. -/
structure ClassDecl where
  name : Name
  kind : ClassKind
  frozen : Bool
  generics : List Name
  parents : List Name
  creators : List Name
  clauses : List Clause
  invariant : Option Invariant
deriving DecidableEq, Repr, Inhabited

namespace ClassDecl

/-- The features of all clauses, in order. -/
def features (c : ClassDecl) : List Feature :=
  c.clauses.flatMap Clause.features

/-- The first feature with this name, in any letter case. -/
def findFeature? (c : ClassDecl) (name : String) : Option Feature :=
  c.features.find? fun f => Text.lower f.name.text == Text.lower name

/-- The names of the attributes. -/
def attributeNames (c : ClassDecl) : List String :=
  (c.features.filter Feature.isAttribute).map (·.name.text)

end ClassDecl

/-- What was recovered of one file. -/
structure Tree where
  path : String
  classes : List ClassDecl
deriving DecidableEq, Repr, Inhabited

end ContractLint
