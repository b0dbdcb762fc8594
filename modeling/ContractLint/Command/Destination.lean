/-
# Destinations

Where a run's output goes: to the standard output or into a file.  The path of a file may start
with `~`, the home directory, and is followed by its names alone.  Directories on the way that are
missing are made.
-/
import ContractLint.Environment
import ContractLint.File.Tree
import ContractLint.Settings

namespace ContractLint.Command

/-- Where output goes. -/
inductive Destination where
  | standard
  | file (names : Names)
deriving DecidableEq, Repr, Inhabited

/-- Why a file cannot be opened for output. -/
inductive OpenFault where
  | isADirectory (names : Names)
  /-- The directory of the file is a file itself. -/
  | fileExists (directory : Names)
  /-- The directory of the file would be inside a file. -/
  | notADirectory (directory : Names)
  /-- Nobody's home. -/
  | noHome
  /-- The path holds a NUL. -/
  | nulInPath
  /-- A file was asked for, but its path was dropped. -/
  | droppedPath
deriving DecidableEq, Repr, Inhabited

/-- A fault of the file system about a path. -/
def systemFault (number : Nat) (what : String) (names : Names) : String :=
  let shown := Text.quoted (Path.absolute names)
  s!"[Errno {number}] {what}: {shown}"

namespace OpenFault

/-- The wording of a fault. -/
def message : OpenFault → String
  | isADirectory names => systemFault 21 "Is a directory" names
  | fileExists directory => systemFault 17 "File exists" directory
  | notADirectory directory => systemFault 20 "Not a directory" directory
  | noHome => "Could not determine home directory."
  | nulInPath => "embedded null byte"
  | droppedPath => "expected str, bytes or os.PathLike object, not list"

/-- Whether the file system refused the path, rather than that it means nothing. -/
def isRefusal : OpenFault → Bool
  | noHome | nulInPath | droppedPath => false
  | _ => true

end OpenFault

namespace Destination

/-- The home directory, without slashes at its end. -/
def home (env : Environment) : Option String :=
  (env.lookup "HOME").map fun path =>
    let kept := String.ofList (path.toList.reverse.dropWhile (· == '/')).reverse
    if kept = "" then "/" else kept

/-- A path whose leading `~` is replaced by the home directory.  Other users have none. -/
def expandHome (env : Environment) (path : String) : Except OpenFault String :=
  match if Path.isAbsolute path then [] else Path.names path with
  | [] => .ok path
  | first :: rest =>
    if first.toList.head? ≠ some '~' then .ok path
    else if first ≠ "~" then .error .noHome
    else
      match home env with
      | none => .error .noHome
      | some base =>
        if base.toList.head? = some '~' then .error .noHome else .ok (Path.below base rest)

/-- The names that a path means when nothing is looked up: two dots take the last name away. -/
def resolve (start : Names) (path : String) : Names :=
  (Path.names path).foldl (fun names part => if part = ".." then names.dropLast else names ++ [part])
    start

/-- Whether the way to these names goes through a file. -/
def isInsideFile (t : FileTree) (names : Names) : Bool :=
  t.files.any fun entry => entry.1.isPrefixOf names && entry.1 != names

/-- The file with these names, opened for output. -/
def openFile (t : FileTree) (names : Names) : Except OpenFault Destination :=
  let directory := names.dropLast
  if t.isDirectory names then .error (.isADirectory names)
  else if t.isDirectory directory then .ok (.file names)
  else if (t.file? directory).isSome then .error (.fileExists directory)
  else if isInsideFile t directory then .error (.notADirectory directory)
  else .ok (.file names)

/-- The destination that a run asks for; a dash asks for the standard output. -/
def ofPath (t : FileTree) (env : Environment) : Option (Given String) → Except OpenFault Destination
  | none => .ok .standard
  | some .dropped => .error .droppedPath
  | some (.value path) =>
    if path = "-" then .ok .standard
    else do
      let expanded ← expandHome env path
      if Path.hasNul expanded then .error .nulInPath
      else openFile t (resolve (t.start expanded) expanded)

end Destination

end ContractLint.Command
