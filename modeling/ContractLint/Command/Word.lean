/-
# Words of the command line

Each word is an argument, an option, or the divider `--`, after which every word is an argument.
An option may be cut short as long as one spelling only begins with what is left, and may carry a
value after an equals sign or, if it has one letter, directly behind it.  Behind one letter the two
ways mean the same, except that the equals sign itself is then no part of the value.
-/
import ContractLint.Command.Usage

namespace ContractLint.Command

/-- The value that a word carries besides its option. -/
inductive Carried where
  | nothing
  /-- What stands behind the equals sign of a spelling with two dashes. -/
  | assigned (value : String)
  /-- What stands behind the letter of an option, with or without an equals sign between them. -/
  | joined (text : String)
deriving DecidableEq, Repr, Inhabited

/-- Whether a word starts with two dashes. -/
def isLong (cs : List Char) : Bool :=
  ['-', '-'].isPrefixOf cs

/-- What a word carries whose option is spelled `spelling`, with `value` behind an equals sign. -/
def Carried.ofValue (spelling : List Char) : Option String → Carried
  | none => .nothing
  | some value => if isLong spelling then .assigned value else .joined value

/-- What a word of the command line is. -/
inductive Word where
  | argument (text : String)
  /-- The end of the options. -/
  | divider
  | switch (switch : Switch) (carried : Carried)
  /-- What looks like an option but is none. -/
  | unknown (text : String)
deriving DecidableEq, Repr, Inhabited

/-- The word that ends the options. -/
def dividerText : String := "--"

namespace Word

/-- A word that is an option by its full spelling. -/
def ofSpelling? (spelling : String) (carried : Carried) : Option Word :=
  (Switch.ofSpelling? spelling).map (switch · carried)

/-- The text before the first equals sign, and what a word carries behind it. -/
def cutAtEquals (cs : List Char) : String × Carried :=
  let before := cs.takeWhile (· != '=')
  let value := match cs.drop before.length with
    | [] => none
    | _ :: after => some (String.ofList after)
  (String.ofList before, .ofValue before value)

/-- Whether a word is a negative number: digits, or a fraction with digits behind the point.  A
final line feed does not count. -/
def isNegativeNumber (cs : List Char) : Bool :=
  let isDecimal (c : Char) := (Text.decimalValue? c).isSome
  let body := if cs.getLast? = some '\n' then cs.dropLast else cs
  match body with
  | '-' :: rest =>
    match rest.dropWhile isDecimal with
    | [] => !rest.isEmpty
    | '.' :: fraction => !fraction.isEmpty && fraction.all isDecimal
    | _ => false
  | _ => false

/-- The options that a word with two dashes may stand for: those whose spelling begins with what
stands before the equals sign. -/
def longMatches (cs : List Char) : List (String × Word) :=
  let (beginning, carried) := cutAtEquals cs
  (Switch.table.filter fun (spelling, _) => beginning.isPrefixOf spelling).map
    fun (spelling, s) => (spelling, switch s carried)

/-- The options that a word with one dash may stand for: the one with its first letter, to which
the rest is joined. -/
def shortMatches (cs : List Char) : List (String × Word) :=
  let spelling := String.ofList (cs.take 2)
  ((ofSpelling? spelling (.joined (String.ofList (cs.drop 2)))).map fun w => (spelling, w)).toList

/-- The options that a word may stand for. -/
def candidates (cs : List Char) : List (String × Word) :=
  if isLong cs then longMatches cs else shortMatches cs

/-- What a word is that starts with a dash, has more than one character, and is no option by its
full spelling. -/
def ofDashed (cs : List Char) : Except UsageError Word :=
  let text := String.ofList cs
  match candidates cs with
  | [(_, word)] => .ok word
  | [] => .ok (if isNegativeNumber cs || cs.contains ' ' then argument text else unknown text)
  | several => .error (.ambiguous text (several.map Prod.fst))

/-- What a word in front of the divider is. -/
def ofText (text : String) : Except UsageError Word :=
  let cs := text.toList
  if cs.head? ≠ some '-' then .ok (argument text)
  else
    match ofSpelling? text .nothing with
    | some word => .ok word
    | none =>
      if cs.length = 1 then .ok (argument text)
      else
        let (spelling, carried) := cutAtEquals cs
        match ofSpelling? spelling carried with
        | some word => .ok word
        | none => ofDashed cs

/-- What the words of a command line are. -/
def classify : List String → Except UsageError (List Word)
  | [] => .ok []
  | text :: rest =>
    if text = dividerText then .ok (divider :: rest.map argument)
    else do
      let word ← ofText text
      let words ← classify rest
      return word :: words

end Word

end ContractLint.Command
