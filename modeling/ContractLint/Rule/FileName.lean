/-
# Class and file names

A class stands in the file of its name, in any letter case.  A text that came from no file has a
path in angle brackets and is not checked.
-/
import ContractLint.Rule.Subject

namespace ContractLint.FileName

/-- The part of a path after its last slash. -/
def base (path : String) : String :=
  String.ofList (path.toList.reverse.takeWhile (· != '/')).reverse

/-- A file name without its extension, the part from the last dot on.  Dots at the start of a name
start no extension. -/
def stem (name : String) : String :=
  let leading := name.toList.takeWhile (· == '.')
  let rest := name.toList.drop leading.length
  let beforeDot := (rest.reverse.dropWhile (· != '.')).drop 1
  if rest.contains '.' then String.ofList (leading ++ beforeDot.reverse) else name

/-- The finding about one class. -/
def finding? (s : Subject) (c : ClassDecl) : Option Diagnostic :=
  let file := base s.path
  let name := c.name.text
  if name == "" || Text.lower name == Text.lower (stem file) then none
  else
    let wanted := Text.lower name ++ Rulebook.extension
    some (s.report Rulebook.classFileName s!"class {name} is declared in '{file}'"
      c.name.location (some s!"rename the file to '{wanted}'"))

/-- The findings of the rule. -/
def check (s : Subject) : List Diagnostic :=
  if s.path.startsWith "<" then [] else s.tree.classes.filterMap (finding? s)

/-- The checker of the rule. -/
def checker : Checker :=
  .ofRules "ClassFileNameChecker" [Rulebook.classFileName] check

end ContractLint.FileName
