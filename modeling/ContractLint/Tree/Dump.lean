/-
# Trees as S-expressions

The structure of a tree, one form per class.  Spans of tokens appear as statement counts.
-/
import ContractLint.Sexp
import ContractLint.Span.Statement
import ContractLint.Tree

namespace ContractLint

open Sexp (symbol number list ofString)

namespace Dump

/-- A form: its head and its parts. -/
def form (head : String) (parts : List Sexp) : Sexp :=
  list (symbol head :: parts)

/-- A form with one symbol. -/
def tagged (head value : String) : Sexp :=
  form head [symbol value]

/-- A form that is left out when it has no parts. -/
def optional (head : String) (parts : List Sexp) : List Sexp :=
  if parts.isEmpty then [] else [form head parts]

/-- A place. -/
def place (l : Location) : Sexp :=
  form "at" [number l.line, number l.column]

/-- A name, or an empty text where it is missing. -/
def name (text : String) : Sexp :=
  if text == "" then ofString "" else symbol text

/-- An assertion block. -/
def block (b : AssertionBlock) : Sexp :=
  form b.kind.label <|
    (if b.extended then [symbol "extended"] else []) ++
      b.assertions.map fun a => form "assertion" [ofString (a.label.getD ""), place a.location]

/-- The target of an agent. -/
def target (t : Target) : Sexp :=
  let (kind, text) := match t with
    | .implicit => ("implicit_current", "")
    | .closed text => ("closed", text)
    | .ofType text => ("open", text)
  form "target" [symbol kind, ofString text]

/-- The arguments of an agent. -/
def arguments : Option (List AgentArgument) → Sexp
  | none => symbol "shorthand"
  | some as => form "args" (as.map fun a => symbol (if a.isOpen then "open" else "closed"))

/-- An agent. -/
def agent : Agent → Sexp
  | .inline l => form "agent" [place l, symbol "inline"]
  | .call l t feature as => form "agent" [place l, target t, name feature, arguments as]

/-- A quantifier. -/
def quantifier (q : Quantifier) : Sexp :=
  form "quantifier"
    [ofString q.quantity.symbol.spelling, name ((q.cursor.map Name.text).getD ""),
     symbol (if q.isWellFormed then "well-formed" else "malformed"), place q.location]

/-- A feature. -/
def feature (f : Feature) : Sexp :=
  form "feature" <|
    [name f.name.text, tagged "kind" (if f.isQuery then "query" else "command"),
     tagged "body" f.body.label, place f.name.location] ++
    optional "args" (f.parameters.map fun p => list [name p.name.text, ofString p.type.shown]) ++
    f.returnType.toList.map (fun t => form "returns" [ofString t.shown]) ++
    optional "once-keys" (f.body.keys.map Sexp.text) ++
    (if f.body.tokens.isEmpty then []
      else [form "statements" [number (statementCount f.body.tokens)]]) ++
    f.blocks.map block ++ f.agents.map agent ++ f.quantifiers.map quantifier

/-- A clause. -/
def clause (c : Clause) : Sexp :=
  form "clause" <|
    symbol c.kind.label :: c.category.toList.map ofString ++ c.features.map feature

/-- A class. -/
def classDecl (c : ClassDecl) : Sexp :=
  let names (ns : List Name) := ns.map fun n => name n.text
  form "class" <|
    [name c.name.text, tagged "kind" c.kind.label, place c.name.location] ++
    optional "generics" (names c.generics) ++
    optional "inherit" (names c.parents) ++
    optional "creators" (names c.creators) ++
    c.clauses.map clause ++
    c.invariant.toList.map fun i => block i.block

end Dump

/-- The tree as an S-expression. -/
def Tree.toSexp (t : Tree) : Sexp :=
  Dump.form "tree" (ofString t.path :: t.classes.map Dump.classDecl)

/-- The tree's S-expression as it is written. -/
def Tree.dump (t : Tree) : List CodePoint :=
  t.toSexp.render

end ContractLint
