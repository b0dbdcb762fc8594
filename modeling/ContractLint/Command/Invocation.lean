/-
# Invocations

A command line as a request.  The words are taken from left to right; each option acts when its
turn comes, so help and version answer before a later mistake is noticed.  The paths are the first
run of arguments: a second run, after further options, is not understood.
-/
import ContractLint.Command.Word

namespace ContractLint.Command

/-- A command line that was understood. -/
structure Invocation where
  request : Request := {}
  /-- How many times more talk was asked for. -/
  verbosity : Nat := 0
  listRules : Bool := false
deriving DecidableEq, Repr, Inhabited

/-- Why a command line is no request: it asks for an explanation, or is not understood. -/
inductive Stop where
  | help
  | version
  | misuse (error : UsageError)
deriving DecidableEq, Repr, Inhabited

/-! ## 1. Options in a word -/

/-- An option that is to act, with its value. -/
abbrev Act := Switch × Option String

/-- The options in a word: `s` with the characters `cs` behind it.  They are the value of an option
that takes one; behind any other stand the letters of further options. -/
def unfoldJoined (s : Switch) (cs : List Char) : Except UsageError (List Act) :=
  let text := String.ofList cs
  if s.takesValue then .ok [(s, some text)]
  else
    match cs with
    | [] => .error (.ignoredValue s text)
    | c :: rest =>
      match Switch.ofSpelling? (String.ofList ['-', c]) with
      | none => .error (.ignoredValue s text)
      | some next =>
        if rest.isEmpty then .ok [(s, none), (next, none)]
        else (unfoldJoined next rest).map ((s, none) :: ·)

/-- The options in a word.  The last one may still want a value. -/
def actsOf (s : Switch) : Carried → Except UsageError (List Act)
  | .nothing => .ok [(s, none)]
  | .assigned value =>
    if s.takesValue then .ok [(s, some value)] else .error (.ignoredValue s value)
  | .joined text => unfoldJoined s text.toList

/-- The option at the end of a word that still wants a value. -/
def wanting? (acts : List Act) : Option Switch :=
  match acts.getLast? with
  | some (s, none) => if s.takesValue then some s else none
  | _ => none

/-! ## 2. What options do -/

namespace Invocation

/-- What is given for an option's value by the text behind the option.  The divider is dropped there
too, though it divides nothing. -/
def given (text : String) : Given String :=
  if text = dividerText then .dropped else .value text

/-- What is given for an option's value, if the option admits it. -/
def admitted (s : Switch) (text : String) : Except Stop (Given String) :=
  match given text with
  | .dropped => .ok .dropped
  | .value text =>
    if s.admits text then .ok (.value text) else .error (.misuse (.invalidChoice s text))

/-- The number that is given for an option's value. -/
def number (s : Switch) : Given String → Except Stop (Given Int)
  | .dropped => .ok .dropped
  | .value text =>
    match Text.integer? text with
    | some n => .ok (.value n)
    | none => .error (.misuse (.notInteger s text))

/-- The invocation after an option acted. -/
def act (i : Invocation) (s : Switch) (text : String) : Except Stop Invocation := do
  let value ← admitted s text
  let withRequest (r : Request) : Invocation := { i with request := r }
  match s with
  | .help => .error .help
  | .version => .error .version
  | .verbose => return { i with verbosity := i.verbosity + 1 }
  | .rules => return withRequest { i.request with rules := some value }
  | .format => return withRequest { i.request with format := value }
  | .threshold => return withRequest { i.request with threshold := value }
  | .output => return withRequest { i.request with output := some value }
  | .jobs => return withRequest { i.request with jobs := some (← number s value) }
  | .noColor => return withRequest { i.request with noColor := true }
  | .listRules => return { i with listRules := true }
  | .dumpTree => return withRequest { i.request with dumpTree := true }

/-- The invocation after options acted one after the other. -/
def actAll (i : Invocation) (acts : List Act) : Except Stop Invocation :=
  acts.foldlM (fun i (s, value) => i.act s (value.getD "")) i

end Invocation

/-! ## 3. Words in turn -/

/-- How far the paths have been read. -/
inductive PathStage where
  | before
  | within
  | after
deriving DecidableEq, Repr, Inhabited

/-- The command line as far as it was read. -/
structure Reading where
  invocation : Invocation := {}
  stage : PathStage := .before
  /-- Words that were not understood. -/
  extras : List String := []
deriving DecidableEq, Repr, Inhabited

namespace Reading

/-- Reads an argument, which is a path unless the paths are over. -/
def argument (r : Reading) (text : String) : Reading :=
  if r.stage = .after then { r with extras := r.extras ++ [text] }
  else
    let request := r.invocation.request
    { r with
      stage := .within
      invocation := { r.invocation with request := { request with paths := request.paths ++ [text] } } }

/-- Reads the divider. -/
def divider (r : Reading) : Reading :=
  if r.stage = .after then { r with extras := r.extras ++ [dividerText] } else { r with stage := .within }

/-- An option ends a run of paths. -/
def closePaths (r : Reading) : Reading :=
  if r.stage = .within then { r with stage := .after } else r

/-- Lets options act. -/
def act (r : Reading) (acts : List Act) : Except Stop Reading := do
  let invocation ← r.invocation.actAll acts
  return { r with invocation := invocation }

/-- Reads words; an option that wants a value takes the next word, which has to be an argument. -/
def words (r : Reading) : List Word → Except Stop Reading
  | [] => .ok r
  | .argument text :: rest => (r.argument text).words rest
  | .divider :: rest => r.divider.words rest
  | .unknown text :: rest =>
    let closed := r.closePaths
    { closed with extras := closed.extras ++ [text] }.words rest
  | .switch s carried :: rest =>
    match actsOf s carried with
    | .error e => .error (.misuse e)
    | .ok acts =>
      match wanting? acts with
      | none => do
        let next ← r.closePaths.act acts
        next.words rest
      | some wanting =>
        match rest.head? with
        | some (.argument text) => do
          let next ← r.closePaths.act (acts.dropLast ++ [(wanting, some text)])
          next.words rest.tail
        | _ => .error (.misuse (.missingValue wanting))
termination_by ws => ws.length
decreasing_by all_goals simp only [List.length_cons, List.length_tail]; omega

end Reading

/-- The request of a command line. -/
def Invocation.ofWords (texts : List String) : Except Stop Invocation := do
  match Word.classify texts with
  | .error e => .error (.misuse e)
  | .ok words =>
    let r ← Reading.words {} words
    if r.extras.isEmpty then return r.invocation else .error (.misuse (.unrecognized r.extras))

end ContractLint.Command
