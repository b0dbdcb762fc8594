/-
# S-expressions

Symbols, numbers, texts and lists, and how they are written: lists in parentheses with single
spaces, symbols bare, numbers in decimal, texts in double quotes with seven characters escaped.
Texts are code points, because the value of an escape may be no character.
-/
import ContractLint.CodePoint

namespace ContractLint

/-- An S-expression. -/
inductive Sexp where
  | symbol (name : String)
  | number (n : Int)
  | text (points : List CodePoint)
  | list (items : List Sexp)
deriving Repr, Inhabited

namespace Sexp

/-- A text of characters. -/
def ofString (s : String) : Sexp :=
  text (CodePoint.ofString s)

/-- The letter that follows the backslash when a code point of a text is escaped. -/
def escapeLetter? (p : CodePoint) : Option Char :=
  if p = .ofChar '\\' then some '\\'
  else if p = .ofChar '"' then some '"'
  else if p = .ofChar '\x08' then some 'b'
  else if p = .ofChar '\x0c' then some 'f'
  else if p = .ofChar '\n' then some 'n'
  else if p = .ofChar '\r' then some 'r'
  else if p = .ofChar '\t' then some 't'
  else none

/-- A code point as it stands in a text. -/
def shown (p : CodePoint) : List CodePoint :=
  match escapeLetter? p with
  | some letter => [.ofChar '\\', .ofChar letter]
  | none => [p]

mutual

/-- The expression as it is written. -/
def render : Sexp → List CodePoint
  | symbol name => CodePoint.ofString name
  | number n => CodePoint.ofString (toString n)
  | text points => .ofChar '"' :: points.flatMap shown ++ [.ofChar '"']
  | list items => .ofChar '(' :: renderItems items ++ [.ofChar ')']

/-- Expressions with single spaces between them. -/
def renderItems : List Sexp → List CodePoint
  | [] => []
  | [e] => e.render
  | e :: es => e.render ++ .ofChar ' ' :: renderItems es

end

end Sexp

end ContractLint
