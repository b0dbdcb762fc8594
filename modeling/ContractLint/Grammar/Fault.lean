/-
# Faults of a class text

Why a class text does not follow the grammar, and how a message words it.
-/
import ContractLint.Token

namespace ContractLint

/-- What a missing identifier would have named. -/
inductive NameRole where
  | className
  | featureName
  | argumentName
  | localName
  | assignerName
deriving DecidableEq, Repr, Inhabited

/-- The role in messages. -/
def NameRole.label : NameRole → String
  | className => "class name"
  | featureName => "feature name"
  | argumentName => "argument name"
  | localName => "local name"
  | assignerName => "assigner name"

/-- Why a class text does not follow the grammar.  Tokens are those found in place of the
expected. -/
inductive SyntaxFault where
  /-- The token itself is faulty. -/
  | token (fault : TokenFault)
  | expectedKeyword (word : Keyword) (found : Token)
  | expectedSymbol (symbol : Symbol) (found : Token)
  | expectedName (role : NameRole) (found : Token)
  /-- A part could not be read, and nothing says why. -/
  | unexpected (found : Token)
  | unexpectedInClass (found : Token)
  | unexpectedInInheritance (found : Token)
  /-- A clause starts before the `end` of a parent's adaptation. -/
  | openAdaptation
  /-- A comma in a creation clause is not followed by a name. -/
  | missingCreator
  | expectedFeature (found : Token)
  /-- No operator follows the `alias` of a feature. -/
  | aliasWithoutOperator
  | untypedConstant
  | expectedConstant (found : Token)
  /-- A note of a feature is not followed by its body. -/
  | noteWithoutBody
  /-- A feature has neither a type nor a body. -/
  | bareFeature (name : String) (found : Token)
  | expectedAnchor (found : Token)
  | expectedType (found : Token)
  | expectedBody (found : Token)
  /-- No language follows `external`. -/
  | externalWithoutLanguage
  /-- No string follows the `alias` of an external body. -/
  | aliasWithoutString
  | missingEnd
  | unexpectedAfterEnd (found : Token)
  | incompleteAgent
  | unbalancedTarget
  /-- No dot follows an agent's target in parentheses. -/
  | targetWithoutDot
  /-- An agent's target type is not closed or not followed by a dot. -/
  | malformedTypeTarget
  | agentWithoutFeature (found : Token)
  | unbalancedArguments
deriving DecidableEq, Repr, Inhabited

/-- The wording of a fault. -/
def SyntaxFault.message : SyntaxFault → String
  | token fault => fault.message
  | expectedKeyword word found => s!"expected '{word.word}', found {found.described}"
  | expectedSymbol symbol found => s!"expected '{symbol.spelling}', found {found.described}"
  | expectedName role found => s!"expected {role.label}, found {found.described}"
  | unexpected found => s!"unexpected {found.described}"
  | unexpectedInClass found => s!"unexpected {found.described} at class level"
  | unexpectedInInheritance found => s!"unexpected {found.described} in inherit clause"
  | openAdaptation => "unterminated parent adaptation (missing 'end')"
  | missingCreator => "expected creation procedure name after ','"
  | expectedFeature found => s!"expected feature declaration, found {found.described}"
  | aliasWithoutOperator => "expected operator string after 'alias'"
  | untypedConstant => "constant without a declared type"
  | expectedConstant found => s!"expected constant value, found {found.described}"
  | noteWithoutBody => "feature note clause without routine body"
  | bareFeature name found =>
    s!"expected ':' or a routine body after '{name}', found {found.described}"
  | expectedAnchor found => s!"expected anchor after 'like', found {found.described}"
  | expectedType found => s!"expected type, found {found.described}"
  | expectedBody found =>
    "expected routine body (do, once, deferred, external or attribute), " ++
      s!"found {found.described}"
  | externalWithoutLanguage => "expected language string after 'external'"
  | aliasWithoutString => "expected string after 'alias'"
  | missingEnd => "missing 'end' of class"
  | unexpectedAfterEnd found => s!"unexpected {found.described} after end of class"
  | incompleteAgent => "incomplete agent expression"
  | unbalancedTarget => "unbalanced parentheses in agent expression"
  | targetWithoutDot => "expected '.' after parenthesised agent target"
  | malformedTypeTarget => "expected '\x7bTYPE\x7d.feature' for open agent target"
  | agentWithoutFeature found =>
    s!"expected feature name in agent expression, found {found.described}"
  | unbalancedArguments => "unbalanced parentheses in agent arguments"

/-- A fault and the place where it was noticed. -/
structure SyntaxError where
  fault : SyntaxFault
  location : Location
deriving DecidableEq, Repr, Inhabited

end ContractLint
