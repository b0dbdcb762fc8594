/-
# The core grammar

A form is a class text, or a part of one, laid out by the rules of the core grammar: a class with
creation clauses, feature clauses and an invariant, and in the feature clauses attributes and
routines.  A form says two things, apart from every reader:

* `items`, how the form is spelled, down to the last item;
* what the form means as a part of the tree (`type`, `entities`, `block`, `features`, `decl`).

Forms cannot be built wrong.  A leaf carries the kind of its item, the brackets of a type are
balanced, and a span is balanced, holds no keyword that would end it, and no agent.  Nothing is
asked of an item but its token, so the items of a text have a form as soon as its tokens have one.
-/
import ContractLint.Grammar.Class

namespace ContractLint

/-! ## 1. Leaves and lists -/

/-- An item of one of the kinds `ks`. -/
structure Leaf (ks : List Kind) where
  item : Item
  kind_mem : item.token.kind ∈ ks

/-- A keyword. -/
abbrev Word (w : Keyword) := Leaf [.keyword w]

/-- A symbol. -/
abbrev Mark (s : Symbol) := Leaf [.operator s]

/-- An identifier. -/
abbrev Identifier := Leaf [.identifier]

namespace Leaf

variable {ks : List Kind}

def items (l : Leaf ks) : List Item :=
  [l.item]

def name (l : Leaf ks) : Name :=
  l.item.token.name

def location (l : Leaf ks) : Location :=
  l.item.token.location

end Leaf

/-- The items of a part that may be missing. -/
def optItems {α : Type} (items : α → List Item) (part : Option α) : List Item :=
  part.elim [] items

/-- One or more parts with commas between them. -/
inductive Commas (α : Type) where
  | one (a : α)
  | more (a : α) (comma : Mark .comma) (rest : Commas α)

namespace Commas

variable {α : Type}

def toList : Commas α → List α
  | one a => [a]
  | more a _ rest => a :: rest.toList

def items (itemsOf : α → List Item) : Commas α → List Item
  | one a => itemsOf a
  | more a comma rest => itemsOf a ++ comma.item :: rest.items itemsOf

end Commas

/-! ## 2. Types and entities -/

/-- Items in which square brackets are balanced. -/
inductive Bracketed : List Item → Prop
  | nil : Bracketed []
  | plain {i : Item} {is : List Item}
      (hi : i.token.isSymbol [.openBracket, .closeBracket] = false) (his : Bracketed is) :
      Bracketed (i :: is)
  | nested {inner outer : List Item} (opening : Mark .openBracket) (closing : Mark .closeBracket)
      (hinner : Bracketed inner) (houter : Bracketed outer) :
      Bracketed (opening.item :: (inner ++ closing.item :: outer))

/-- Actual generics. -/
structure GenericsForm where
  opening : Mark .openBracket
  inner : List Item
  bracketed : Bracketed inner
  closing : Mark .closeBracket

def GenericsForm.items (g : GenericsForm) : List Item :=
  g.opening.item :: (g.inner ++ [g.closing.item])

/-- The mark of a type, as a word or as a symbol. -/
inductive TypeMarkForm where
  | unmarked
  | attached (leaf : Leaf [.keyword .kwAttached, .operator .bang])
  | detachable (leaf : Leaf [.keyword .kwDetachable, .operator .question])

namespace TypeMarkForm

def items : TypeMarkForm → List Item
  | unmarked => []
  | attached leaf => leaf.items
  | detachable leaf => leaf.items

def mark : TypeMarkForm → TypeMark
  | unmarked => .unmarked
  | attached _ => .attached
  | detachable _ => .detachable

end TypeMarkForm

/-- A type without its marks. -/
inductive TypeCoreForm where
  | anchor (like : Word .kwLike) (target : Leaf [.identifier, .keyword .kwCurrent])
      (path : List (Mark .dot × Identifier))
  | named (name : Leaf [.identifier, .keyword .kwTuple]) (generics : Option GenericsForm)

/-- A step of an anchor's path. -/
def pathItems (step : Mark .dot × Identifier) : List Item :=
  [step.1.item, step.2.item]

def TypeCoreForm.items : TypeCoreForm → List Item
  | anchor like target path => like.item :: target.item :: path.flatMap pathItems
  | named name generics => name.item :: optItems GenericsForm.items generics

/-- A type. -/
structure TypeForm where
  mark : TypeMarkForm
  separate : Option (Word .kwSeparate)
  frozen : Option (Word .kwFrozen)
  core : TypeCoreForm

namespace TypeForm

def items (t : TypeForm) : List Item :=
  t.mark.items ++ (optItems Leaf.items t.separate ++
    (optItems Leaf.items t.frozen ++ t.core.items))

theorem items_ne_nil (t : TypeForm) : t.items ≠ [] := by
  have hcore : t.core.items ≠ [] := by cases t.core <;> exact List.cons_ne_nil _ _
  simp [items, hcore]

/-- The type as it is written, without its mark, at its first item. -/
def type (t : TypeForm) : TypeRef :=
  ⟨renderTokens (t.core.items.map Item.token), t.mark.mark,
    (t.items.head t.items_ne_nil).token.location⟩

end TypeForm

/-- Names of one type.  The semicolon after the last group may be missing, and so may the others. -/
structure GroupForm where
  names : Commas Identifier
  colon : Mark .colon
  type : TypeForm
  semicolon : Option (Mark .semicolon)

namespace GroupForm

def items (g : GroupForm) : List Item :=
  g.names.items Leaf.items ++ g.colon.item :: (g.type.items ++ optItems Leaf.items g.semicolon)

def entities (g : GroupForm) : List Entity :=
  g.names.toList.map fun n => ⟨n.name, g.type.type⟩

end GroupForm

/-- Formal arguments. -/
structure ArgumentsForm where
  opening : Mark .openParen
  groups : List GroupForm
  closing : Mark .closeParen

def ArgumentsForm.items (a : ArgumentsForm) : List Item :=
  a.opening.item :: (a.groups.flatMap GroupForm.items ++ [a.closing.item])

/-- Local variables. -/
structure LocalsForm where
  keyword : Word .kwLocal
  groups : List GroupForm

def LocalsForm.items (l : LocalsForm) : List Item :=
  l.keyword.item :: l.groups.flatMap GroupForm.items

/-! ## 3. Spans -/

/-- Whether `ts`, read from the nesting `n` on, holds no keyword of `stops` outside all blocks.  A
`once` in front of a string is part of the string. -/
def Nesting.avoids (stops : List Keyword) (n : Nesting) : List Token → Bool
  | [] => true
  | t :: ts =>
    !(n.depth == 0 && t.isKeyword stops && !(t.isKeyword [.kwOnce] && isManifest ts.head?)) &&
      (n.feed t ts.head?).avoids stops ts

/-- A span: balanced, without agents, and without a keyword that would end it. -/
structure SpanForm (stops : List Keyword) where
  items : List Item
  balanced : (({} : Nesting).feedAll (items.map Item.token)).depth = 0
  avoids : ({} : Nesting).avoids stops (items.map Item.token) = true
  plain : ∀ i ∈ items, i.token.isKeyword [.kwFeature, .kwAgent] = false ∧ i.token.isEof = false

def SpanForm.tokens {stops : List Keyword} (s : SpanForm stops) : List Token :=
  s.items.map Item.token

/-- An assertion block behind the keyword `w`.  It does not extend an inherited one. -/
structure BlockForm (g : BlockGrammar) (w : Keyword) where
  keyword : Word w
  span : SpanForm g.stops
  fresh : ∀ i ∈ span.items.head?, i.token.isKeyword g.extension = false

namespace BlockForm

variable {g : BlockGrammar} {w : Keyword}

def items (b : BlockForm g w) : List Item :=
  b.keyword.item :: b.span.items

def block (b : BlockForm g w) : AssertionBlock where
  kind := g.kind
  location := b.keyword.location
  assertions := assertions b.span.tokens

end BlockForm

/-! ## 4. Routines -/

/-- The body of a routine. -/
inductive BodyForm where
  | instructions (keyword : Word .kwDo) (span : SpanForm bodyStops)
  /-- Without keys, and not part of a string. -/
  | once (keyword : Word .kwOnce) (span : SpanForm bodyStops)
      (bare : ∀ i ∈ span.items.head?,
        i.token.isString = false ∧ i.token.isSymbol [.openParen] = false)
  | deferred (keyword : Word .kwDeferred)

namespace BodyForm

def items : BodyForm → List Item
  | instructions keyword span => keyword.item :: span.items
  | once keyword span _ => keyword.item :: span.items
  | deferred keyword => keyword.items

def body : BodyForm → Body
  | instructions _ span => .instructions span.tokens
  | once _ span _ => .once [] span.tokens
  | deferred _ => .deferred

end BodyForm

/-- The rescue of a routine. -/
structure RescueForm where
  keyword : Word .kwRescue
  span : SpanForm bodyStops

def RescueForm.items (r : RescueForm) : List Item :=
  r.keyword.item :: r.span.items

/-- A routine. -/
structure RoutineForm where
  precondition : Option (BlockForm .precondition .kwRequire)
  locals : Option LocalsForm
  body : BodyForm
  postcondition : Option (BlockForm .postcondition .kwEnsure)
  rescue : Option RescueForm
  closing : Word .kwEnd

namespace RoutineForm

def items (r : RoutineForm) : List Item :=
  optItems BlockForm.items r.precondition ++ (optItems LocalsForm.items r.locals ++
    (r.body.items ++ (optItems BlockForm.items r.postcondition ++
      (optItems RescueForm.items r.rescue ++ r.closing.items))))

def routine (r : RoutineForm) : Routine where
  precondition := r.precondition.map BlockForm.block
  locals := r.locals.elim [] fun l => l.groups.flatMap GroupForm.entities
  body := r.body.body
  postcondition := r.postcondition.map BlockForm.block
  endLocation := r.closing.location

end RoutineForm

/-! ## 5. Declarations -/

/-- One of the names that a declaration introduces. -/
structure DeclaredForm where
  frozen : Option (Word .kwFrozen)
  name : Identifier

def DeclaredForm.items (d : DeclaredForm) : List Item :=
  optItems Leaf.items d.frozen ++ d.name.items

/-- The result type of a declaration. -/
structure ResultForm where
  colon : Mark .colon
  type : TypeForm

def ResultForm.items (r : ResultForm) : List Item :=
  r.colon.item :: r.type.items

/-- What the names of a declaration have in common. -/
structure SignatureForm where
  names : Commas DeclaredForm
  arguments : Option ArgumentsForm
  result : Option ResultForm

namespace SignatureForm

def items (s : SignatureForm) : List Item :=
  s.names.items DeclaredForm.items ++
    (optItems ArgumentsForm.items s.arguments ++ optItems ResultForm.items s.result)

theorem items_ne_nil (s : SignatureForm) : s.items ≠ [] := by
  have hnames : s.names.items DeclaredForm.items ≠ [] := by
    cases s.names <;> simp [Commas.items, DeclaredForm.items, Leaf.items]
  simp [items, hnames]

def last (s : SignatureForm) : Item :=
  s.items.getLast s.items_ne_nil

def parameters (s : SignatureForm) : List Entity :=
  s.arguments.elim [] fun a => a.groups.flatMap GroupForm.entities

def returnType (s : SignatureForm) : Option TypeRef :=
  s.result.map (·.type.type)

end SignatureForm

/-- A declaration is complete: it has a type or a routine. -/
inductive DeclarationForm where
  | stored (signature : SignatureForm) (typed : signature.result.isSome = true)
  | computed (signature : SignatureForm) (routine : RoutineForm)

namespace DeclarationForm

def items : DeclarationForm → List Item
  | stored signature _ => signature.items
  | computed signature routine => signature.items ++ routine.items

/-- The features of a declaration, one for each name. -/
def features : DeclarationForm → List Feature
  | stored s _ =>
    s.names.toList.map fun d =>
      { name := d.name.name
        frozen := d.frozen.isSome
        parameters := s.parameters
        returnType := s.returnType
        headerComment := s.last.headerComment
        endLocation := s.last.token.location }
  | computed s r =>
    s.names.toList.map fun d =>
      { name := d.name.name
        frozen := d.frozen.isSome
        parameters := s.parameters
        returnType := s.returnType
        headerComment := s.last.headerComment
        precondition := r.routine.precondition
        postcondition := r.routine.postcondition
        locals := r.routine.locals
        body := r.routine.body
        agents := []
        quantifiers := Construct.quantifiers r.routine.constructs
        innerBlocks := innerBlocks r.routine.body.tokens
        endLocation := r.routine.endLocation }

end DeclarationForm

/-! ## 6. Clauses and classes -/

/-- A list of clients in braces. -/
structure BracesForm where
  opening : Mark .openBrace
  inner : List Item
  flat : ∀ i ∈ inner, i.token.isSymbol [.closeBrace] = false
  closing : Mark .closeBrace

namespace BracesForm

def items (b : BracesForm) : List Item :=
  b.opening.item :: (b.inner ++ [b.closing.item])

def clients (b : BracesForm) : List String :=
  ((b.inner.map Item.token).filter Token.isIdentifier).map Token.text

end BracesForm

/-- A clause of a class. -/
inductive ClauseForm where
  | create (keyword : Word .kwCreate) (clients : Option BracesForm)
      (names : Option (Commas Identifier))
  | feature (keyword : Word .kwFeature) (clients : Option BracesForm)
      (declarations : List DeclarationForm)

namespace ClauseForm

/-- The items in front of the names or declarations. -/
def headItems {w : Keyword} (keyword : Word w) (clients : Option BracesForm) : List Item :=
  keyword.item :: optItems BracesForm.items clients

def items : ClauseForm → List Item
  | create keyword clients names =>
    headItems keyword clients ++ optItems (Commas.items Leaf.items) names
  | feature keyword clients declarations =>
    headItems keyword clients ++ declarations.flatMap DeclarationForm.items

/-- What a clause adds to the tree.  The category of a feature clause is in the comment behind its
head. -/
def part : ClauseForm → Part
  | create _ _ names => .creators (names.elim [] fun ns => ns.toList.map Leaf.name)
  | feature keyword clients declarations =>
    .clause
      { kind := .explicit
        location := keyword.location
        category := ((headItems keyword clients).getLast?).bind Item.category?
        clients := clients.elim [] BracesForm.clients
        features := declarations.flatMap DeclarationForm.features }

end ClauseForm

/-- The invariant that a block spells, without agents. -/
def BlockForm.invariant (b : BlockForm .classInvariant .kwInvariant) : Invariant where
  block := b.block
  agents := []
  quantifiers := Construct.quantifiers b.block.constructs

/-- A class. -/
structure ClassForm where
  marks : List (Leaf (classMarks.map Kind.keyword))
  keyword : Word .kwClass
  name : Identifier
  clauses : List ClauseForm
  invariant : Option (BlockForm .classInvariant .kwInvariant)
  closing : Word .kwEnd

namespace ClassForm

/-- The items behind the header. -/
def bodyItems (c : ClassForm) : List Item :=
  c.clauses.flatMap ClauseForm.items ++ (optItems BlockForm.items c.invariant ++ c.closing.items)

def items (c : ClassForm) : List Item :=
  c.marks.map Leaf.item ++ c.keyword.item :: c.name.item :: c.bodyItems

/-- The class that a form spells. -/
def decl (c : ClassForm) : ClassDecl where
  name := c.name.name
  kind := (c.marks.map fun m => m.item.token).foldl ClassKind.marked .ordinary
  frozen := c.marks.any fun m => m.item.token.isKeyword [.kwFrozen]
  generics := []
  parents := []
  creators := Part.creatorNames (c.clauses.map ClauseForm.part)
  clauses := Part.clauses (c.clauses.map ClauseForm.part)
  invariant := c.invariant.map BlockForm.invariant

end ClassForm

end ContractLint
