/-
# Feature clauses

Features stand in a feature clause, and the clause has a category that the rulebook knows.
-/
import ContractLint.Rule.Subject

namespace ContractLint.FeatureClause

/-- A category without blanks around it and dots after it, in lower case. -/
def folded (category : String) : String :=
  Text.lower (String.ofList (Text.dropEndWhile (· == '.') (Text.trim category).toList))

/-- Whether the rulebook knows a category. -/
def isRecognised (category : String) : Bool :=
  (Rulebook.categories.map Text.lower).contains (folded category)

/-- The findings about one clause. -/
def ofClause (s : Subject) (c : Clause) : List Diagnostic :=
  match c.kind, c.category with
  | .implicit, _ =>
    c.features.map fun f =>
      s.report Rulebook.featureClause s!"feature {f.name.text} is not inside a feature clause"
        f.name.location (some "add a 'feature -- Category' header before it")
  | .explicit, none =>
    [s.report Rulebook.featureClause "feature clause has no category comment" c.location
      (some "add a category comment such as '-- Access'")]
  | .explicit, some category =>
    if isRecognised category then []
    else
      [s.report Rulebook.featureClause s!"unrecognised feature clause category '{category}'"
        c.location none]

/-- The findings of the rule. -/
def check (s : Subject) : List Diagnostic :=
  s.tree.classes.flatMap fun c => c.clauses.flatMap (ofClause s)

/-- The checker of the rule. -/
def checker : Checker :=
  .ofRules "FeatureClauseChecker" [Rulebook.featureClause] check

end ContractLint.FeatureClause
