/-
# Quoted text

How messages show a piece of text between quotes.  The mark is the single quote, unless the text
holds a single quote and no double one.  Inside, the mark and the backslash get a backslash in
front, line feed, carriage return and tab have letters of their own, and every other character
that is not printable is shown by its code in two, four or eight hexadecimal digits.
-/
import ContractLint.Text.Printable

namespace ContractLint.Text

/-- `n` in lower-case hexadecimal, filled with zeros up to `width` digits. -/
def hexDigits (width n : Nat) : List Char :=
  let ds := Nat.toDigits 16 n
  List.replicate (width - ds.length) '0' ++ ds

namespace Quoted

/-- The quotation mark for a text. -/
def mark (cs : List Char) : Char :=
  if cs.contains '\'' && !cs.contains '"' then '"' else '\''

/-- A character that is not printable, by its code. -/
def coded (c : Char) : List Char :=
  if c.toNat < 0x100 then ['\\', 'x'] ++ hexDigits 2 c.toNat
  else if c.toNat < 0x10000 then ['\\', 'u'] ++ hexDigits 4 c.toNat
  else ['\\', 'U'] ++ hexDigits 8 c.toNat

/-- One character as it stands between two marks `m`. -/
def shown (m c : Char) : List Char :=
  if c == m || c == '\\' then ['\\', c]
  else if c == '\n' then ['\\', 'n']
  else if c == '\r' then ['\\', 'r']
  else if c == '\t' then ['\\', 't']
  else if isPrintable c then [c]
  else coded c

end Quoted

/-- A text between quotation marks. -/
def quoted (s : String) : String :=
  let m := Quoted.mark s.toList
  String.ofList (m :: s.toList.flatMap (Quoted.shown m) ++ [m])

end ContractLint.Text
