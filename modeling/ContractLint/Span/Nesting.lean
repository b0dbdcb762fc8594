/-
# Block nesting

Routine bodies and assertions are kept as runs of tokens.  What the grammar needs to know about a
run is how deep in blocks and brackets each token stands.  `Nesting.feed` reads one token: a
compound instruction opens a frame, `end` closes the innermost one, and an inline routine opens a
HEAD frame at `require` or `local` which a later `do` or `once` turns into a body without opening a
second frame.  A `once` directly in front of a string is part of the string and opens nothing.
-/
import ContractLint.Token

namespace ContractLint

/-- A compound instruction, which lasts up to its `end`. -/
inductive Compound where
  | ifBlock | fromLoop | acrossLoop | inspectBlock | checkBlock | debugBlock
deriving DecidableEq, Repr, Inhabited

namespace Compound

/-- The compound instruction that a keyword opens. -/
def ofKeyword? : Keyword → Option Compound
  | .kwIf => some ifBlock
  | .kwFrom => some fromLoop
  | .kwAcross => some acrossLoop
  | .kwInspect => some inspectBlock
  | .kwCheck => some checkBlock
  | .kwDebug => some debugBlock
  | _ => none

/-- The word that opens the instruction. -/
def label : Compound → String
  | ifBlock => "if"
  | fromLoop => "from"
  | acrossLoop => "across"
  | inspectBlock => "inspect"
  | checkBlock => "check"
  | debugBlock => "debug"

end Compound

/-- An open block. -/
inductive Frame where
  | compound (c : Compound)
  /-- An inline routine before its body. -/
  | routineHead
  /-- An inline routine in its body. -/
  | routineBody
deriving DecidableEq, Repr, Inhabited

/-- The frame's name in traces. -/
def Frame.label : Frame → String
  | compound c => c.label
  | routineHead => "routine-head"
  | routineBody => "routine"

/-- The open blocks, innermost first, and the number of open brackets. -/
structure Nesting where
  frames : List Frame := []
  brackets : Nat := 0
deriving DecidableEq, Repr, Inhabited

/-- Whether a string comes next, so that a `once` in front of it belongs to the string. -/
def isManifest (next : Option Token) : Bool :=
  next.any (·.isString)

namespace Nesting

/-- The number of open blocks. -/
def depth (n : Nesting) : Nat :=
  n.frames.length

/-- The number of open blocks and brackets. -/
def level (n : Nesting) : Nat :=
  n.frames.length + n.brackets

/-- The innermost open block. -/
def top? (n : Nesting) : Option Frame :=
  n.frames.head?

/-- One more block is open. -/
def push (n : Nesting) (f : Frame) : Nesting :=
  { n with frames := f :: n.frames }

/-- The innermost block is closed. -/
def pop (n : Nesting) : Nesting :=
  { n with frames := n.frames.tail }

/-- A routine's head starts, unless one is open already. -/
def openHead (n : Nesting) : Nesting :=
  if n.top? = some .routineHead then n else n.push .routineHead

/-- A routine's body starts, in the open head if there is one. -/
def openBody (n : Nesting) : Nesting :=
  if n.top? = some .routineHead then n.pop.push .routineBody else n.push .routineBody

/-- The nesting after a keyword; `next` follows it. -/
def feedKeyword (n : Nesting) (w : Keyword) (next : Option Token) : Nesting :=
  match Compound.ofKeyword? w with
  | some c => n.push (.compound c)
  | none =>
    match w with
    | .kwEnd => n.pop
    | .kwRequire | .kwLocal => n.openHead
    | .kwDo => n.openBody
    | .kwOnce => if isManifest next then n else n.openBody
    | _ => n

/-- The nesting after a symbol.  A closing bracket without an open one changes nothing. -/
def feedSymbol (n : Nesting) (s : Symbol) : Nesting :=
  match s with
  | .openParen | .openBracket | .openBrace => { n with brackets := n.brackets + 1 }
  | .closeParen | .closeBracket | .closeBrace => { n with brackets := n.brackets - 1 }
  | _ => n

/-- The nesting after the token `t`; `next` follows it. -/
def feed (n : Nesting) (t : Token) (next : Option Token) : Nesting :=
  match t.kind with
  | .operator s => n.feedSymbol s
  | .keyword w => n.feedKeyword w next
  | _ => n

/-- The nesting after all of `ts`. -/
def feedAll (n : Nesting) : List Token → Nesting
  | [] => n
  | t :: ts => (n.feed t ts.head?).feedAll ts

/-- The nesting after each token of `ts`. -/
def trace (n : Nesting) : List Token → List Nesting
  | [] => []
  | t :: ts => n.feed t ts.head? :: (n.feed t ts.head?).trace ts

end Nesting

/-! ## Where a span ends -/

/-- Whether the keyword `w` ends a span at this nesting: a hard stop always does, another stop only
outside all blocks and only if it is not part of a string. -/
def Nesting.stopsAt (n : Nesting) (stops hard : List Keyword) (w : Keyword)
    (next : Option Token) : Bool :=
  hard.contains w ||
    (n.depth == 0 && stops.contains w && !(w == .kwOnce && isManifest next))

/-- The number of tokens up to the first that ends the span. -/
def spanLengthFrom (stops hard : List Keyword) (n : Nesting) : List Token → Nat
  | [] => 0
  | t :: ts =>
    match t.kind with
    | .eof => 0
    | .keyword w =>
      if n.stopsAt stops hard w ts.head? then 0
      else spanLengthFrom stops hard (n.feed t ts.head?) ts + 1
    | _ => spanLengthFrom stops hard (n.feed t ts.head?) ts + 1

/-- The length of the span that `ts` starts with. -/
def spanLength (stops hard : List Keyword) (ts : List Token) : Nat :=
  spanLengthFrom stops hard {} ts

/-- The index of the token that ends the span starting at index `start`. -/
def spanEnd (ts : List Token) (start : Nat) (stops hard : List Keyword) : Nat :=
  start + spanLength stops hard (ts.drop start)

end ContractLint
