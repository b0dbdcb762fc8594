/-
# Attachment

An attached argument cannot be void, so a precondition that tests it against `Void` is redundant.
Recognised are an equality or inequality of a name and `Void` in either order, and `attached` with a
bare name.
-/
import ContractLint.Rule.Subject

namespace ContractLint.Attachment

/-- A tested name, and the token at which the test is reported. -/
structure VoidTest where
  name : String
  token : Token
deriving DecidableEq, Repr, Inhabited

/-- Whether a token compares its neighbours. -/
def isComparison (t : Token) : Bool :=
  t.isSymbol [.equal, .notEqual]

/-- Whether a token goes on with the expression before it as a call. -/
def isCallTail (t : Token) : Bool :=
  t.isSymbol [.dot, .openParen]

/-- The test at the token `t`, with `prev` before it and `rest` after it. -/
def testAt? (prev : Option Token) (t : Token) (rest : List Token) : Option VoidTest :=
  let compared := rest.head?.any isComparison
  let attached := prev.filter (·.isKeyword [.kwAttached])
  if t.isIdentifier && !prev.any (·.isSymbol [.dot]) then
    if compared && (rest[1]?).any (·.isKeyword [.kwVoid]) then
      if attached.isSome then none else some ⟨t.text, t⟩
    else if rest.head?.any fun u => u.isKeyword [.kwAs] || isCallTail u then none
    else attached.map (⟨t.text, ·⟩)
  else if t.isKeyword [.kwVoid] && compared then
    match rest[1]? with
    | some operand =>
      if operand.isIdentifier && !(rest[2]?).any isCallTail then some ⟨operand.text, t⟩ else none
    | none => none
  else none

/-- The tests of an expression, with `prev` before it. -/
def testsAfter (prev : Option Token) : List Token → List VoidTest
  | [] => []
  | t :: ts => (testAt? prev t ts).toList ++ testsAfter (some t) ts

/-- The tests of an expression. -/
def tests (expression : List Token) : List VoidTest :=
  testsAfter none expression

/-- A name in lower case; names are ASCII. -/
def folded (s : String) : String :=
  String.ofList (s.toList.map Char.toLower)

/-- The attached argument of a feature with this name, in any letter case; the last of several. -/
def attachedArgument? (f : Feature) (name : String) : Option Entity :=
  (f.parameters.filter (·.type.mark != .detachable)).reverse.find? fun p =>
    folded p.name.text == folded name

/-- The finding about a test in the precondition of a feature. -/
def finding? (s : Subject) (f : Feature) (test : VoidTest) : Option Diagnostic :=
  (attachedArgument? f test.name).map fun p =>
    s.report Rulebook.attachment
      (s!"argument '{p.name.text}' of {f.name.text} is attached; " ++
        "testing it against Void is redundant")
      test.token.location (some "remove the test, or declare the argument 'detachable'")

/-- The findings about one feature. -/
def ofFeature (s : Subject) (f : Feature) : List Diagnostic :=
  f.precondition.toList.flatMap fun b =>
    b.assertions.flatMap fun a => (tests a.expression).filterMap (finding? s f)

/-- The findings of the rule. -/
def check (s : Subject) : List Diagnostic :=
  (s.tree.features.map Prod.snd).flatMap (ofFeature s)

/-- The checker of the rule. -/
def checker : Checker :=
  .ofRules "AttachmentChecker" [Rulebook.attachment] check

end ContractLint.Attachment
