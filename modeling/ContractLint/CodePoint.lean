/-
# Code points

The value of a numeric escape is any number up to the last code point, SURROGATES included, and a
surrogate is no `Char`.  Decoded text is therefore a list of code points.
-/

namespace ContractLint

/-- A Unicode code point, surrogates included. -/
abbrev CodePoint := Fin 0x110000

namespace CodePoint

theorem char_lt (c : Char) : c.toNat < 0x110000 := by
  have h : c.toNat.isValidChar := c.valid
  simp only [Nat.isValidChar] at h
  omega

/-- The code point of a character. -/
def ofChar (c : Char) : CodePoint :=
  ⟨c.toNat, char_lt c⟩

/-- The code points of a text. -/
def ofChars (cs : List Char) : List CodePoint :=
  cs.map ofChar

/-- The code points of a text. -/
def ofString (s : String) : List CodePoint :=
  ofChars s.toList

/-- Whether a code point is one half of a surrogate pair, and so no character. -/
def isSurrogate (p : CodePoint) : Bool :=
  0xd800 ≤ p.val && p.val ≤ 0xdfff

/-- The text of code points that are all characters. -/
def toString? (ps : List CodePoint) : Option String :=
  if ps.any isSurrogate then none
  else some (String.ofList (ps.map fun p => Char.ofNat p.val))

/-- The code point that stands for text that could not be decoded. -/
def replacement : CodePoint :=
  ofChar '\ufffd'

end CodePoint

end ContractLint
