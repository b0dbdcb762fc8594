/-
# JSON reports

An array with one object for each finding.  The keys of an object are in alphabetical order, lines
are indented by two spaces for each level, and everything outside printable ASCII is written by its
UTF-16 units, so the report is ASCII whatever the findings say.
-/
import ContractLint.Diagnostic

namespace ContractLint.Report

/-! ## 1. Strings -/

/-- The UTF-16 units of a character: one, or a pair of surrogates. -/
def units16 (c : Char) : List Nat :=
  if c.toNat < 0x10000 then [c.toNat]
  else
    let n := c.toNat - 0x10000
    [0xd800 + n / 0x400, 0xdc00 + n % 0x400]

/-- The letter that follows the backslash when `c` is escaped by a letter. -/
def jsonLetter? (c : Char) : Option Char :=
  if c = '"' then some '"'
  else if c = '\\' then some '\\'
  else if c = '\n' then some 'n'
  else if c = '\r' then some 'r'
  else if c = '\t' then some 't'
  else if c = '\x0c' then some 'f'
  else if c = '\x08' then some 'b'
  else none

/-- Whether `c` stands in a string as it is. -/
def isPlainAscii (c : Char) : Bool :=
  ' ' ≤ c && c ≤ '~'

/-- A character as it stands in a string. -/
def jsonChar (c : Char) : List Char :=
  match jsonLetter? c with
  | some letter => ['\\', letter]
  | none =>
    if isPlainAscii c then [c]
    else (units16 c).flatMap fun u => ['\\', 'u'] ++ Text.hexDigits 4 u

/-- A text as a string. -/
def jsonString (cs : List Char) : List Char :=
  '"' :: cs.flatMap jsonChar ++ ['"']

/-! ## 2. Objects -/

/-- The value of a key. -/
inductive Scalar where
  | number (n : Int)
  | text (s : String)
deriving DecidableEq, Repr, Inhabited

/-- A value as it is written. -/
def Scalar.render : Scalar → List Char
  | number n => (toString n).toList
  | text s => jsonString s.toList

/-- What an object says about a finding, in alphabetical order of the keys; advice only if there is
some. -/
def fields (d : Diagnostic) : List (String × Scalar) :=
  [("column", .number d.location.column), ("file", .text d.path)] ++
  (d.advice?.map fun fix => ("fix", Scalar.text fix)).toList ++
  [("line", .number d.location.line), ("message", .text d.message), ("rule", .text d.rule),
   ("severity", .text d.severity.label)]

/-- Pieces with a comma and a line end between them. -/
def joinLines : List (List Char) → List Char
  | [] => []
  | [p] => p
  | p :: ps => p ++ ',' :: '\n' :: joinLines ps

/-- A line of an object: indentation, key and value. -/
def fieldLine (field : String × Scalar) : List Char :=
  List.replicate 4 ' ' ++ jsonString field.1.toList ++ ':' :: ' ' :: field.2.render

/-- A finding as an object of the array. -/
def object (d : Diagnostic) : List Char :=
  "  \x7b\n".toList ++ joinLines ((fields d).map fieldLine) ++ "\n  \x7d".toList

/-- The JSON report as characters. -/
def jsonChars (ds : List Diagnostic) : List Char :=
  if ds.isEmpty then "[]\n".toList
  else "[\n".toList ++ joinLines (ds.map object) ++ "\n]\n".toList

/-- The JSON report. -/
def json (ds : List Diagnostic) : String :=
  String.ofList (jsonChars ds)

end ContractLint.Report
