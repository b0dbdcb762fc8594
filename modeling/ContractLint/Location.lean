/-
# Points of a text

A `Location` names a point by line, column and offset.  Lines and columns count from one, offsets
from zero, all in characters.  Reading a character moves a location (`Location.next`), and the
location of any point is what reading everything before it gives (`Location.after`).  Coordinates
are integers, so that a whole text can be moved by any distance and back.
-/

namespace ContractLint

/-- A point of a text: line and column from one, offset from zero. -/
structure Location where
  line : Int
  column : Int
  offset : Int
deriving DecidableEq, Repr, Inhabited

namespace Location

/-- The location of findings that belong to a file as a whole. -/
def unknown : Location := ⟨0, 0, 0⟩

/-- The first point of a text. -/
def start : Location := ⟨1, 1, 0⟩

/-- Whether the location is a point of a text. -/
def isKnown (l : Location) : Bool :=
  0 < l.line

/-- The location after the character `c` at `l` was read. -/
def next (l : Location) (c : Char) : Location :=
  if c = '\n' then ⟨l.line + 1, 1, l.offset + 1⟩ else ⟨l.line, l.column + 1, l.offset + 1⟩

/-- The location after the characters `cs` from `l` on were read. -/
def after (l : Location) (cs : List Char) : Location :=
  cs.foldl next l

@[simp] theorem after_nil (l : Location) : l.after [] = l := rfl

@[simp] theorem after_cons (l : Location) (c : Char) (cs : List Char) :
    l.after (c :: cs) = (l.next c).after cs := rfl

theorem after_append (l : Location) (cs ds : List Char) :
    l.after (cs ++ ds) = (l.after cs).after ds := by
  simp [after]

/-- Line and column as reports write them. -/
def label (l : Location) : String :=
  s!"{l.line}:{l.column}"

end Location

end ContractLint
