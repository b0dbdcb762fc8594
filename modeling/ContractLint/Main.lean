/-
# The command

Takes a picture of the files that the words of the command line name, runs the command over it, and
puts what the run left behind where it belongs.
-/
import ContractLint.Command.Run
import Std.Time.Format

namespace ContractLint.Command

/-- The names of a path from the root on. -/
def namesFrom (start : Names) (path : String) : Names :=
  Destination.resolve (if Path.isAbsolute path then [] else start) path

/-- Whether there is a directory at a path. -/
def isDirectoryAt (path : String) : IO Bool := do
  try
    let _ ← (← IO.FS.realPath path).readDir
    return true
  catch _ => return false

/-- A picture that also shows what is at a path, and everything below it. -/
partial def look (t : FileTree) (path : String) (names : Names) : IO FileTree := do
  if ← isDirectoryAt path then
    let entries ← (← IO.FS.realPath path).readDir
    let start := { t with directories := names :: t.directories }
    entries.toList.foldlM
      (fun t entry => look t (path ++ "/" ++ entry.fileName) (names ++ [entry.fileName])) start
  else
    try
      let bytes ← IO.FS.readBinFile path
      return { t with files := (names, bytes.data.toList) :: t.files }
    catch _ => return t

/-- A picture that also shows what stands in the way to a file that is to be written. -/
def lookAround (t : FileTree) (names : Names) : IO FileTree :=
  (List.range (names.length + 1)).foldlM
    (fun t n => do
      let part := names.take n
      if ← isDirectoryAt (Path.absolute part) then
        return { t with directories := part :: t.directories }
      else
        try
          let _ ← IO.FS.readBinFile (Path.absolute part)
          return { t with files := t.files ++ [(part, [])] }
        catch _ => return t)
    t

/-- The variables that a run may ask for. -/
def readEnvironment : IO Environment := do
  let values ← [jobsVariable, noColorVariable, "HOME"].mapM fun name => do
    return (← IO.getEnv name).map fun value => (name, value)
  return values.filterMap id

/-- The time of day. -/
def readClock : IO String := do
  try
    return (← Std.Time.PlainDateTime.now).format "HH:mm:ss"
  catch _ => return "00:00:00"

/-- A picture of the files that a request names. -/
def picture (env : Environment) (request : Request) : IO FileTree := do
  let cwd := Path.names (← IO.currentDir).toString
  let seen ← request.paths.foldlM
    (fun t path => if Path.hasNul path then pure t else look t path (namesFrom cwd path))
    { workingDirectory := cwd }
  match request.output with
  | some (.value path) =>
    match Destination.expandHome env path with
    | .ok path =>
      if Path.hasNul path then return seen else lookAround seen (namesFrom cwd path)
    | .error _ => return seen
  | _ => return seen

/-- What a run can see. -/
def lookAtSurroundings (words : List String) : IO Surroundings := do
  let env ← readEnvironment
  let files ← match Invocation.ofWords words with
    | .ok invocation => picture env invocation.request
    | .error _ => pure {}
  return { files := files, environment := env, terminal := ← (← IO.getStdout).isTty
           clock := ← readClock }

/-- Writes the file that a run asks to be written. -/
def write (names : Names) (content : String) : IO Unit := do
  IO.FS.createDirAll (Path.absolute names.dropLast)
  IO.FS.writeFile (Path.absolute names) content

end ContractLint.Command

open ContractLint.Command in
/-- Runs the command. -/
def main (words : List String) : IO UInt32 := do
  match run (← lookAtSurroundings words) words with
  | .error gap =>
    (← IO.getStderr).putStrLn gap.message
    return 1
  | .ok outcome =>
    (← IO.getStdout).putStr outcome.stdout
    if let some (names, content) := outcome.written then
      write names content
    (← IO.getStderr).putStr outcome.stderr
    return outcome.exitCode.toUInt32
