/-
# Once classes

The creation procedures of a once class are once procedures of the class.
-/
import ContractLint.Rule.Subject

namespace ContractLint.OnceClass

/-- What is wrong with a creation procedure of a once class. -/
def fault? (c : ClassDecl) (creator : Name) : Option String :=
  match c.findFeature? creator.text with
  | none =>
    some (s!"{creator.text} is listed as a creation procedure of once class " ++
      s!"{c.name.text} but is not declared in it")
  | some f =>
    if f.isOnce && f.isCommand then none
    else some (s!"{creator.text} is a creation procedure of once class " ++
      s!"{c.name.text} but is not a once procedure")

/-- The finding about a creation procedure of a once class. -/
def finding? (s : Subject) (c : ClassDecl) (creator : Name) : Option Diagnostic :=
  (fault? c creator).map fun message =>
    s.report Rulebook.onceClass message creator.location
      (some s!"declare {creator.text} with a 'once' body")

/-- The findings of the rule. -/
def check (s : Subject) : List Diagnostic :=
  (s.tree.classes.filter (·.kind == .once)).flatMap fun c =>
    c.creators.filterMap (finding? s c)

/-- The checker of the rule. -/
def checker : Checker :=
  .ofRules "OnceClassChecker" [Rulebook.onceClass] check

end ContractLint.OnceClass
