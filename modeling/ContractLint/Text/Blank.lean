/-
# Blank characters and trimming

The whitespace of Unicode 14, and the operations that remove it from the ends of a text.
-/
import ContractLint.Text.CharSet

namespace ContractLint.Text

/-- The whitespace characters of Unicode 14. -/
def blanks : CharSet := ⟨
  [0x9, 0xe, 0x1c, 0x21, 0x85, 0x86, 0xa0, 0xa1, 0x1680, 0x1681, 0x2000, 0x200b, 0x2028, 0x202a,
   0x202f, 0x2030, 0x205f, 0x2060, 0x3000, 0x3001]⟩

/-- Whether `c` is whitespace. -/
def isBlank (c : Char) : Bool :=
  blanks.contains c

/-- `cs` without the longest run at its end that satisfies `p`. -/
def dropEndWhile (p : Char → Bool) (cs : List Char) : List Char :=
  (cs.reverse.dropWhile p).reverse

/-- `cs` without the whitespace at its two ends. -/
def trimChars (cs : List Char) : List Char :=
  dropEndWhile isBlank (cs.dropWhile isBlank)

/-- `s` without the whitespace at its two ends. -/
def trim (s : String) : String :=
  String.ofList (trimChars s.toList)

end ContractLint.Text
