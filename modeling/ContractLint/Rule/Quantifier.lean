/-
# Quantifiers

A quantifier has a cursor, a colon and a broken bar.
-/
import ContractLint.Rule.Subject

namespace ContractLint.QuantifierForm

/-- What a quantifier lacks. -/
def missing (q : Quantifier) : List String :=
  (if q.cursor.isNone then ["cursor name"] else []) ++
    (if q.hasColon then [] else ["':'"]) ++
    (if q.hasBar then [] else ["'¦'"])

/-- The finding about a quantifier that lacks something. -/
def finding (s : Subject) (q : Quantifier) : Diagnostic :=
  let symbol := q.quantity.symbol.spelling
  let lacks := " and ".intercalate (missing q)
  s.report Rulebook.quantifierForm s!"quantifier '{symbol}' is missing {lacks}" q.location
    (some s!"write '{symbol} c: domain ¦ expression'")

/-- The findings of the rule. -/
def check (s : Subject) : List Diagnostic :=
  (s.tree.quantifiers.filter (!·.isWellFormed)).map (finding s)

/-- The checker of the rule. -/
def checker : Checker :=
  .ofRules "QuantifierFormChecker" [Rulebook.quantifierForm] check

end ContractLint.QuantifierForm
