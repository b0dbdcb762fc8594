/-
# Integers written in decimal

`integer?` reads an integer as people write it: blanks around it, a sign, decimal digits of any
script, and single underscores between two digits.  Nothing else is an integer, and neither is a
number of more than `maxDigits` digits.
-/
import ContractLint.Text.Blank
import ContractLint.Text.Digit

namespace ContractLint.Text

/-- The largest number of digits that is read. -/
def maxDigits : Nat := 4300

/-- Whether `c` may stand around an integer: whitespace, but no ASCII information separator. -/
def isPadding (c : Char) : Bool :=
  isBlank c && !('\x1c' ≤ c && c ≤ '\x1f')

/-- The values of a run of decimal digits with single underscores between them. -/
def digitValues? : List Char → Option (List Nat)
  | [] => none
  | [c] => (decimalValue? c).map fun d => [d]
  | c :: '_' :: rest => do
    let d ← decimalValue? c
    let ds ← digitValues? rest
    return d :: ds
  | c :: rest => do
    let d ← decimalValue? c
    let ds ← digitValues? rest
    return d :: ds

/-- The number with these digits. -/
def ofDigits (ds : List Nat) : Nat :=
  ds.foldl (fun n d => 10 * n + d) 0

/-- The number that a run of digits spells. -/
def natural? (cs : List Char) : Option Nat :=
  ((digitValues? cs).filter (·.length ≤ maxDigits)).map ofDigits

/-- The integer that a text spells. -/
def integer? (s : String) : Option Int :=
  match dropEndWhile isPadding (s.toList.dropWhile isPadding) with
  | '-' :: cs => (natural? cs).map fun n => -(n : Int)
  | '+' :: cs => (natural? cs).map fun n => (n : Int)
  | cs => (natural? cs).map fun n => (n : Int)

end ContractLint.Text
