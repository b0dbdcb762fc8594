/-
# Tokens

A token has a kind, the exact text it was read from, and the location of its first character.
Literals also keep the segments of their content.  A token that could not be completed carries the
fault.  What a token stands for (`Token.value`) is a function of these.
-/
import ContractLint.Location
import ContractLint.Segment
import ContractLint.Text.Blank
import ContractLint.Token.Keyword
import ContractLint.Token.Symbol

namespace ContractLint

/-- What a token is. -/
inductive Kind where
  | identifier
  | keyword (word : Keyword)
  | operator (symbol : Symbol)
  | string
  | character
  /-- A character literal that is one numeric escape. -/
  | numericEscape
  | number
  | comment
  /-- The leading spaces and tabs of a line. -/
  | indent
  /-- A character that starts no token. -/
  | invalid
  /-- The end of the text. -/
  | eof
deriving DecidableEq, Repr, Inhabited

namespace Kind

/-- The kind's name in listings of tokens. -/
def label : Kind → String
  | identifier => "identifier"
  | keyword _ => "keyword"
  | operator _ => "operator"
  | string => "string-literal"
  | character => "character-literal"
  | numericEscape => "numeric-escape"
  | number => "number"
  | comment => "comment"
  | indent => "indentation-marker"
  | invalid => "invalid"
  | eof => "end-of-file"

/-- The kind's name in log lines. -/
def tag : Kind → String
  | identifier => "IDENTIFIER"
  | keyword _ => "KEYWORD"
  | operator _ => "OPERATOR"
  | string => "STRING"
  | character => "CHARACTER"
  | numericEscape => "NUMERIC_ESCAPE"
  | number => "NUMBER"
  | comment => "COMMENT"
  | indent => "INDENT"
  | invalid => "INVALID"
  | eof => "EOF"

/-- Whether the grammar passes over tokens of this kind. -/
def isTrivia : Kind → Bool
  | comment | indent => true
  | _ => false

end Kind

/-- Why a token is not what it should be. -/
inductive TokenFault where
  | unterminatedString
  | unterminatedVerbatim
  | emptyCharacter
  | unterminatedCharacter
  | overlongCharacter
  | unexpectedCharacter (c : Char)
deriving DecidableEq, Repr, Inhabited

/-- The wording of a fault. -/
def TokenFault.message : TokenFault → String
  | unterminatedString => "unterminated string literal"
  | unterminatedVerbatim => "unterminated verbatim string"
  | emptyCharacter => "empty character literal"
  | unterminatedCharacter => "unterminated character literal"
  | overlongCharacter => "character literal holds more than one character"
  | unexpectedCharacter c =>
    let shown := Text.quoted c.toString
    s!"unexpected character {shown}"

/-- A token and where it starts. -/
structure Token where
  kind : Kind
  text : String
  location : Location
  segments : List Segment := []
  fault : Option TokenFault := none
deriving DecidableEq, Repr, Inhabited

namespace Token

/-- The line on which the token starts. -/
def line (t : Token) : Int :=
  t.location.line

/-- The column in which the token starts. -/
def column (t : Token) : Int :=
  t.location.column

/-- The offset of the token's first character. -/
def offset (t : Token) : Int :=
  t.location.offset

/-- The offset just past the token. -/
def endOffset (t : Token) : Int :=
  t.offset + t.text.length

/-- Whether the grammar passes over the token. -/
def isTrivia (t : Token) : Bool :=
  t.kind.isTrivia

/-- Whether the token is an identifier. -/
def isIdentifier (t : Token) : Bool :=
  t.kind == .identifier

/-- Whether the token is a string literal. -/
def isString (t : Token) : Bool :=
  t.kind == .string

/-- Whether the token marks the end of the text. -/
def isEof (t : Token) : Bool :=
  t.kind == .eof

/-- Whether the token is one of the keywords `ws`. -/
def isKeyword (t : Token) (ws : List Keyword) : Bool :=
  match t.kind with
  | .keyword w => ws.contains w
  | _ => false

/-- Whether the token is one of the symbols `ss`. -/
def isSymbol (t : Token) (ss : List Symbol) : Bool :=
  match t.kind with
  | .operator s => ss.contains s
  | _ => false

/-- The token's text in lower case; meant for words, which are ASCII. -/
def lowered (t : Token) : String :=
  String.ofList (t.text.toList.map Char.toLower)

/-- The text of a comment without its dashes and surrounding blanks. -/
def commentText (t : Token) : String :=
  Text.trim (String.ofList (t.text.toList.drop 2))

/-- What the token stands for: the decoded content of a literal, the text of a comment, and the
token's own text otherwise. -/
def value (t : Token) : List CodePoint :=
  match t.kind with
  | .string | .character | .numericEscape => Segment.values t.segments
  | .comment => CodePoint.ofString t.commentText
  | _ => CodePoint.ofString t.text

/-- How messages name the token. -/
def described (t : Token) : String :=
  if t.isEof then "end of file" else s!"'{t.text}'"

/-- How log lines name the token. -/
def logged (t : Token) : String :=
  let shown := Text.quoted t.text
  s!"Token({t.kind.tag}, {shown}, {t.location.label})"

end Token

/-- Texts of a run of tokens on one line: a space between two tokens, but none after an opening
bracket or a dot and none before a closing bracket, a comma, a semicolon, a dot or a colon. -/
def renderTokens : List Token → String
  | [] => ""
  | [t] => t.text
  | t :: u :: ts =>
    let tight := t.isSymbol [.openParen, .openBracket, .openBrace, .dot] ||
      u.isSymbol [.closeParen, .closeBracket, .closeBrace, .comma, .semicolon, .dot, .colon]
    t.text ++ (if tight then "" else " ") ++ renderTokens (u :: ts)

end ContractLint
