/-
# Commands and queries

A query does not assign an attribute that its postcondition refers to.  Assignments and references
are compared by name, without types.
-/
import ContractLint.Rule.Subject
import ContractLint.Span.Statement

namespace ContractLint.CommandQuery

/-- The identifiers of an expression that are not selected from something, with `prev` before the
expression. -/
def freeIdentifiersAfter (prev : Option Token) : List Token → List Token
  | [] => []
  | t :: ts =>
    let rest := freeIdentifiersAfter (some t) ts
    if t.isIdentifier && !prev.any (·.isSymbol [.dot]) then t :: rest else rest

/-- The identifiers of an expression that are not selected from something. -/
def freeIdentifiers (expression : List Token) : List Token :=
  freeIdentifiersAfter none expression

/-- The attributes that a query assigns, as first written in its body. -/
def assigned (attributes : List String) (f : Feature) : List Token :=
  (assignedNames f.body.tokens).filter fun t => attributes.contains t.lowered

/-- The names that a feature's postcondition refers to, each once. -/
def observed (f : Feature) : List String :=
  (f.postcondition.toList.flatMap fun b =>
    b.assertions.flatMap fun a => (freeIdentifiers a.expression).map Token.lowered).eraseDups

/-- The findings about one feature of a class with these attributes. -/
def ofFeature (s : Subject) (attributes : List String) (f : Feature) : List Diagnostic :=
  if !f.isQuery then []
  else
    (observed f).filterMap fun name =>
      ((assigned attributes f).find? (·.lowered == name)).map fun t =>
        s.report Rulebook.commandQuery
          (s!"query {f.name.text} assigns attribute '{t.text}' " ++
            "that its postcondition refers to")
          f.name.location (some "split the state change into a command")

/-- The findings of the rule. -/
def check (s : Subject) : List Diagnostic :=
  s.tree.classes.flatMap fun c =>
    let attributes := c.attributeNames.map fun n => String.ofList (n.toList.map Char.toLower)
    c.features.flatMap (ofFeature s attributes)

/-- The checker of the rule. -/
def checker : Checker :=
  .ofRules "CommandQueryChecker" [Rulebook.commandQuery] check

end ContractLint.CommandQuery
