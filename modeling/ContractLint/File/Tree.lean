/-
# File trees

A picture of the files that a run can see: names from the root on, with the bytes that each file
holds.  A directory is there because it is listed, because something is in it, or because work
goes on in it.  Following a path (`FileTree.follow`) goes through it part by part, and every part
but the last has to be a directory.
-/
import ContractLint.File.Path
import ContractLint.Source
import ContractLint.Text.Utf8

namespace ContractLint

/-- Names from the root on. -/
abbrev Names := List String

/-- What a run can see of the files. -/
structure FileTree where
  /-- The directory that relative paths start from. -/
  workingDirectory : Names := []
  files : List (Names × List UInt8) := []
  directories : List Names := []
deriving DecidableEq, Repr, Inhabited

/-- Why a file cannot be read. -/
inductive ReadFailure where
  | noSuchFile
  | notADirectory
  | isADirectory
  | notText (fault : Text.Utf8.Fault)
deriving DecidableEq, Repr, Inhabited

/-- The wording of a failure. -/
def ReadFailure.message : ReadFailure → String
  | noSuchFile => "No such file or directory"
  | notADirectory => "Not a directory"
  | isADirectory => "Is a directory"
  | notText fault => s!"not valid UTF-8 ({fault.reason.message} at byte {fault.position})"

namespace FileTree

/-- The bytes of the file with these names. -/
def file? (t : FileTree) (names : Names) : Option (List UInt8) :=
  t.files.lookup names

/-- Whether these names are a directory. -/
def isDirectory (t : FileTree) (names : Names) : Bool :=
  names.isPrefixOf t.workingDirectory || t.directories.any names.isPrefixOf ||
    t.files.any fun (file, _) => names.isPrefixOf file && names != file

/-- That these names are a directory, or why nothing can be looked up in them. -/
def enter (t : FileTree) (names : Names) : Except ReadFailure Unit :=
  if t.isDirectory names then .ok ()
  else if (t.file? names).isSome then .error .notADirectory
  else .error .noSuchFile

/-- The names that the parts of a path lead to from a directory. -/
def followFrom (t : FileTree) (names : Names) : List String → Except ReadFailure Names
  | [] => .ok names
  | part :: parts => do
    t.enter names
    let next :=
      if Path.isVoid part then names
      else if part = ".." then names.dropLast
      else names ++ [part]
    t.followFrom next parts

/-- The directory that a path starts from. -/
def start (t : FileTree) (path : String) : Names :=
  if Path.isAbsolute path then [] else t.workingDirectory

/-- The names that a path leads to. -/
def follow (t : FileTree) (path : String) : Except ReadFailure Names :=
  if path = "" then .error .noSuchFile else t.followFrom (t.start path) (Path.parts path)

/-- The bytes of the file at a path. -/
def read (t : FileTree) (path : String) : Except ReadFailure (List UInt8) := do
  let names ← t.follow path
  match t.file? names with
  | some bytes => return bytes
  | none => if t.isDirectory names then .error .isADirectory else .error .noSuchFile

/-- The text of the file at a path. -/
def readText (t : FileTree) (path : String) : Except ReadFailure String := do
  let bytes ← t.read path
  match Text.Utf8.decode bytes with
  | .ok text => return String.ofList (normalizeLineEnds text)
  | .error fault => .error (.notText fault)

/-- The directory that a path leads to. -/
def directory? (t : FileTree) (path : String) : Option Names :=
  match t.follow path with
  | .ok names => if t.isDirectory names then some names else none
  | .error _ => none

/-- The names of the files below a directory, counted from it. -/
def filesBelow (t : FileTree) (directory : Names) : List Names :=
  t.files.filterMap fun (file, _) =>
    if directory.isPrefixOf file then some (file.drop directory.length) else none

end FileTree

end ContractLint
