/-
# Operator symbols

The operators and punctuation of class texts.  Two-character symbols come first in `Symbol.all`, so
taking the first symbol that a text starts with takes the longest one.
-/

namespace ContractLint

/-- An operator or a punctuation mark. -/
inductive Symbol where
  | assign | assignAttempt | notEqual | notAlike | lessEqual | greaterEqual | arrow | interval
  | quotient | remainder | openTuple | closeTuple | plus | minus | times | divide | power | equal
  | less | greater | alike | openParen | closeParen | comma | semicolon | colon | dot
  | openBracket | closeBracket | openBrace | closeBrace | question | bang | atSign | hash | dollar
  | ampersand | bar | backslash | forAll | thereExists | brokenBar
deriving DecidableEq, Repr, Inhabited

namespace Symbol

/-- How a symbol is written. -/
def spelling : Symbol → String
  | assign => ":="
  | assignAttempt => "?="
  | notEqual => "/="
  | notAlike => "/~"
  | lessEqual => "<="
  | greaterEqual => ">="
  | arrow => "->"
  | interval => ".."
  | quotient => "//"
  | remainder => "\\\\"
  | openTuple => "<<"
  | closeTuple => ">>"
  | plus => "+"
  | minus => "-"
  | times => "*"
  | divide => "/"
  | power => "^"
  | equal => "="
  | less => "<"
  | greater => ">"
  | alike => "~"
  | openParen => "("
  | closeParen => ")"
  | comma => ","
  | semicolon => ";"
  | colon => ":"
  | dot => "."
  | openBracket => "["
  | closeBracket => "]"
  | openBrace => "\x7b"
  | closeBrace => "\x7d"
  | question => "?"
  | bang => "!"
  | atSign => "@"
  | hash => "#"
  | dollar => "$"
  | ampersand => "&"
  | bar => "|"
  | backslash => "\\"
  | forAll => "∀"
  | thereExists => "∃"
  | brokenBar => "¦"

/-- Every symbol, the two-character ones first. -/
def all : List Symbol :=
  [assign, assignAttempt, notEqual, notAlike, lessEqual, greaterEqual, arrow, interval, quotient,
   remainder, openTuple, closeTuple, plus, minus, times, divide, power, equal, less, greater,
   alike, openParen, closeParen, comma, semicolon, colon, dot, openBracket, closeBracket,
   openBrace, closeBrace, question, bang, atSign, hash, dollar, ampersand, bar, backslash, forAll,
   thereExists, brokenBar]

/-- The longest symbol that a text starts with. -/
def read? (cs : List Char) : Option Symbol :=
  all.find? fun s => s.spelling.toList.isPrefixOf cs

end Symbol

end ContractLint
