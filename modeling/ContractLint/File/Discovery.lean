/-
# Finding class texts

A run is given paths.  A directory stands for the class texts below it, at any depth and in
alphabetical order of their paths; any other path stands for itself, whether or not there is a
file.  A path that comes up again is not repeated.
-/
import ContractLint.File.Tree
import ContractLint.Rulebook

namespace ContractLint.FileTree

/-- Whether the last of these names is the name of a class text. -/
def isClassText (names : Names) : Bool :=
  Rulebook.extension.toList.isSuffixOf ((names.getLast?.getD "").toList)

/-- The files that a path stands for. -/
def expand (t : FileTree) (path : String) : List String :=
  match t.directory? path with
  | none => [path]
  | some directory =>
    (((t.filesBelow directory).filter isClassText).map (Path.below path)).mergeSort (· ≤ ·)

/-- The files that paths stand for, each once. -/
def discover (t : FileTree) (paths : List String) : List String :=
  (paths.flatMap t.expand).eraseDups

end ContractLint.FileTree
