/-
# Paths

A path is a text in which slashes divide names.  `Path.names` is what it says, name by name;
`Path.normal` is the same path in its shortest spelling: empty names and single dots are left out,
while two dots stay, because what they mean depends on the directories.
-/
import ContractLint.Text.Split

namespace ContractLint.Path

/-- The parts of a path between its slashes, empty ones included. -/
def parts (path : String) : List String :=
  Text.split '/' path

/-- Whether a part of a path changes nothing. -/
def isVoid (part : String) : Bool :=
  part = "" || part = "."

/-- The parts of a path that name something. -/
def names (path : String) : List String :=
  (parts path).filter fun part => !isVoid part

/-- The slashes in front of an absolute path: two if it starts with exactly two, else one.  A
relative path has none. -/
def root (path : String) : String :=
  match (path.toList.takeWhile (· == '/')).length with
  | 0 => ""
  | 2 => "//"
  | _ => "/"

/-- Whether a path starts at the root. -/
def isAbsolute (path : String) : Bool :=
  path.toList.head? = some '/'

/-- Names with slashes between them. -/
def join (names : List String) : String :=
  "/".intercalate names

/-- The directory `base`, a path, with names below it in its shortest spelling. -/
def below (base : String) (rest : List String) : String :=
  root base ++ join (names base ++ rest)

/-- Names from the root on as an absolute path. -/
def absolute (names : List String) : String :=
  "/" ++ join names

/-- Whether a path holds a NUL, which no path of a file may. -/
def hasNul (path : String) : Bool :=
  path.toList.contains '\x00'

end ContractLint.Path
