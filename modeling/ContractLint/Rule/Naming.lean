/-
# Naming

Class and generic names are upper case, all other declared names lower snake case.  A finding
proposes the name in the other spelling.
-/
import ContractLint.Rule.Subject

namespace ContractLint.Naming

/-- How a declared name is to be spelled. -/
inductive Style where
  | upper
  | lowerSnake
deriving DecidableEq, Repr, Inhabited

/-- Whether `c` may continue a name of this style. -/
def Style.admits (style : Style) (c : Char) : Bool :=
  c.isDigit || c == '_' || (match style with
    | upper => c.isUpper
    | lowerSnake => c.isLower)

/-- Whether `c` may start a name of this style. -/
def Style.admitsFirst (style : Style) (c : Char) : Bool :=
  match style with
  | upper => c.isUpper
  | lowerSnake => c.isLower

/-- Whether a name has this style. -/
def Style.accepts (style : Style) : List Char → Bool
  | [] => false
  | c :: cs => style.admitsFirst c && cs.all style.admits

/-- An underscore at every change from a lower-case letter or a digit to an upper-case letter. -/
def separateWords : List Char → List Char
  | c :: d :: cs =>
    if (c.isLower || c.isDigit) && d.isUpper then c :: '_' :: separateWords (d :: cs)
    else c :: separateWords (d :: cs)
  | cs => cs

/-- Every run of underscores shrinks to one. -/
def squeezeUnderscores : List Char → List Char
  | c :: d :: cs =>
    if c == '_' && d == '_' then squeezeUnderscores (d :: cs)
    else c :: squeezeUnderscores (d :: cs)
  | cs => cs

/-- A name in lower snake case. -/
def snakeCase (cs : List Char) : List Char :=
  (squeezeUnderscores (separateWords cs)).map Char.toLower

/-- A name as a style proposes it. -/
def Style.propose (style : Style) (cs : List Char) : List Char :=
  match style with
  | upper => cs.map Char.toUpper
  | lowerSnake => snakeCase cs

/-- The style in messages. -/
def Style.label : Style → String
  | upper => "upper case"
  | lowerSnake => "lower snake case"

/-- A declared name, what it names, and the style it is to have. -/
structure Declared where
  role : String
  name : Name
  style : Style

/-- The cursor names of quantifiers. -/
def cursors (qs : List Quantifier) : List Declared :=
  qs.filterMap fun q => q.cursor.map (⟨"quantifier cursor", ·, .lowerSnake⟩)

/-- The names that a feature declares. -/
def ofFeature (f : Feature) : List Declared :=
  ⟨"feature", f.name, .lowerSnake⟩ ::
    f.parameters.map (fun p => ⟨"argument", p.name, .lowerSnake⟩) ++
    f.locals.map (fun l => ⟨"local", l.name, .lowerSnake⟩) ++
    cursors f.quantifiers

/-- The names that a class declares.  A class that could not be read has no name. -/
def ofClass (c : ClassDecl) : List Declared :=
  (if c.name.text == "" then [] else [⟨"class", c.name, .upper⟩]) ++
    c.generics.map (fun g => ⟨"formal generic", g, .upper⟩) ++
    c.features.flatMap ofFeature ++
    cursors (c.invariant.toList.flatMap Invariant.quantifiers)

/-- The finding about a declared name, if its spelling is wrong. -/
def finding? (s : Subject) (d : Declared) : Option Diagnostic :=
  let cs := d.name.text.toList
  if d.style.accepts cs then none
  else
    let proposed := String.ofList (d.style.propose cs)
    some (s.report Rulebook.naming
      s!"{d.role} name '{d.name.text}' should be {d.style.label}" d.name.location
      (some s!"rename to '{proposed}'"))

/-- The findings of the naming rule. -/
def check (s : Subject) : List Diagnostic :=
  (s.tree.classes.flatMap ofClass).filterMap (finding? s)

/-- The checker of the naming rule. -/
def checker : Checker :=
  .ofRules "NamingChecker" [Rulebook.naming] check

end ContractLint.Naming
