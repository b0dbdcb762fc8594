/-
# Source texts

A `Source` is the text of one class with the path it came from.  Line ends are normalised when a
source is made: a carriage return, alone or before a line feed, becomes a line feed.  So columns
do not depend on where the file was written, and a line is what stands between two line feeds.  The
source is asked for points and lines by way of the offsets at which its lines start.
-/
import ContractLint.Bisection
import ContractLint.Location

namespace ContractLint

/-- Every carriage return, with the line feed that may follow it, becomes one line feed. -/
def normalizeLineEnds : List Char → List Char
  | [] => []
  | '\r' :: '\n' :: cs => '\n' :: normalizeLineEnds cs
  | c :: cs => (if c = '\r' then '\n' else c) :: normalizeLineEnds cs

/-- The normalised text of one file. -/
structure Source where
  path : String
  text : List Char
deriving DecidableEq, Repr, Inhabited

namespace Source

/-- The path of a text that came from no file. -/
def anonymousPath : String := "<string>"

/-- The source of a raw text. -/
def ofString (raw : String) (path : String) : Source :=
  ⟨path, normalizeLineEnds raw.toList⟩

/-- The number of characters. -/
def length (s : Source) : Nat :=
  s.text.length

/-- The offsets behind the line feeds of a text that stands at an offset. -/
def startsBehind (offset : Nat) : List Char → List Nat
  | [] => []
  | c :: cs =>
    if c = '\n' then (offset + 1) :: startsBehind (offset + 1) cs else startsBehind (offset + 1) cs

/-- The offset of the first character of each line.  A final line feed has a start behind it. -/
def lineStarts (s : Source) : List Nat :=
  0 :: startsBehind 0 s.text

/-- The number of lines.  A final line feed starts no further line. -/
def lineCount (s : Source) : Nat :=
  if s.text.getLast? = some '\n' then s.lineStarts.length - 1 else s.lineStarts.length

/-- The location of an offset, found from the last line start up to it.  An offset outside the text
counts as the nearer end. -/
def location (s : Source) (offset : Int) : Location :=
  let offset := (max 0 (min offset s.length)).toNat
  let index := bisection s.lineStarts offset 0 s.lineStarts.length - 1
  ⟨index + 1, (offset : Int) - (s.lineStarts.getD index 0 : Nat) + 1, offset⟩

/-- The offset of a line's first character.  Lines count from one; zero is the last line, minus
one the line before it, and so on.  There is none when the number runs out of the text. -/
def lineStart? (s : Source) (line : Int) : Option Nat :=
  let starts := s.lineStarts
  let index := if line < 1 then line - 1 + starts.length else line - 1
  if index < 0 then none else starts[index.toNat]?

/-- The text of a line up to its line feed, empty when there is no such line. -/
def lineText (s : Source) (line : Int) : List Char :=
  if line < 1 ∨ s.lineStarts.length < line then []
  else
    let rest := s.text.drop (s.lineStarts.getD (line - 1).toNat 0)
    match rest.findIdx? (· == '\n') with
    | some length => rest.take length
    | none => rest

/-- The lines, without their line feeds. -/
def lines (s : Source) : List (List Char) :=
  (List.range s.lineCount).map fun i => s.lineText ((i + 1 : Nat) : Int)

end Source

end ContractLint
