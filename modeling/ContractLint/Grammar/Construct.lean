/-
# Agents and quantifiers in a span

`constructs` goes through a span once and picks out its agents and quantifiers.  An agent takes
what belongs to it, and the search goes on behind it; a quantifier takes only its symbol, so what
its domain and body hold is found as well.  An agent that cannot be read leaves its fault.
-/
import ContractLint.Grammar.Fault
import ContractLint.Tree

namespace ContractLint

/-! ## 1. Brackets and arguments -/

/-- The index of the symbol `close` that closes the first `opening` of `ts`; `depth` are open. -/
def matchingFrom (opening close : Symbol) (depth : Nat) : List Token → Option Nat
  | [] => none
  | t :: ts =>
    if t.isSymbol [opening] then (matchingFrom opening close (depth + 1) ts).map (· + 1)
    else if t.isSymbol [close] then
      if depth ≤ 1 then some 0 else (matchingFrom opening close (depth - 1) ts).map (· + 1)
    else (matchingFrom opening close depth ts).map (· + 1)

/-- The index of the symbol that closes the opening one at the start of `ts`. -/
def matching? (opening close : Symbol) (ts : List Token) : Option Nat :=
  matchingFrom opening close 0 ts

/-- The bracket depth after a token. -/
def argumentDepth (depth : Int) (t : Token) : Int :=
  if t.isSymbol [.openParen, .openBracket, .openBrace] then depth + 1
  else if t.isSymbol [.closeParen, .closeBracket, .closeBrace] then depth - 1
  else depth

/-- The groups of tokens between commas outside brackets; never empty. -/
def argumentGroups (depth : Int) : List Token → List (List Token)
  | [] => [[]]
  | t :: ts =>
    let depth := argumentDepth depth t
    if depth = 0 ∧ t.isSymbol [.comma] then [] :: argumentGroups depth ts
    else match argumentGroups depth ts with
      | [] => [[t]]
      | g :: gs => (t :: g) :: gs

/-- The arguments between the parentheses that `paren` opens.  An empty argument is located at the
parenthesis. -/
def splitArguments (paren : Token) (inner : List Token) : List AgentArgument :=
  if inner = [] then []
  else (argumentGroups 0 inner).map fun g => ⟨g, (g.headD paren).location⟩

/-! ## 2. Agents -/

/-- Keywords that start the routine of an inline agent. -/
def inlineKeywords : List Keyword :=
  [.kwDo, .kwOnce, .kwRequire, .kwLocal, .kwExternal]

/-- Whether a token may be part of a chain of calls. -/
def isChainPart (t : Token) : Bool :=
  t.isIdentifier || t.isKeyword [.kwCurrent, .kwResult, .kwPrecursor]

/-- Whether a token may follow a dot in a chain of calls. -/
def isChainLink (t : Token) : Bool :=
  t.isIdentifier || t.isKeyword [.kwCurrent, .kwResult]

/-- The parts of the chain of calls that `ts` starts with.  With the dots between them they take
one token less than twice their number. -/
def chain : List Token → List Token
  | p :: d :: q :: ts =>
    if isChainPart p then
      if d.isSymbol [.dot] && isChainLink q then p :: chain (q :: ts) else [p]
    else []
  | p :: _ => if isChainPart p then [p] else []
  | [] => []

/-- An agent or its fault, and the number of tokens after the keyword that the search passes. -/
abbrev AgentReading := Except SyntaxError Agent × Nat

/-- The target of a chain's last part, when `target` stands before the chain and `links` are its
other parts. -/
def Target.extend (target : Target) (links : List Token) : Target :=
  let text := ".".intercalate (links.map Token.text)
  match target, links with
  | target, [] => target
  | .implicit, _ => .closed text
  | .closed before, _ => .closed s!"{before}.{text}"
  | .ofType before, _ => .ofType s!"{before}.{text}"

/-- Reads an agent's chain of calls and arguments.  `ts` follows the keyword, and `skip` tokens of
it are the target. -/
def readCall (keyword : Token) (target : Target) (ts : List Token) (skip : Nat) : AgentReading :=
  let rest := ts.drop skip
  let parts := chain rest
  let passed := skip + (2 * parts.length - 1)
  let missing : AgentReading :=
    let found := (ts[passed]?).getD keyword
    (.error ⟨.agentWithoutFeature found, found.location⟩, passed)
  match parts.getLast? with
  | none => missing
  | some last =>
    if !last.isIdentifier then missing
    else
      let target := target.extend parts.dropLast
      match ts.drop passed with
      | [] => (.ok (.call keyword.location target last.text none), passed)
      | paren :: inner =>
        if paren.isSymbol [.openParen] then
          match matching? .openParen .closeParen (paren :: inner) with
          | none => (.error ⟨.unbalancedArguments, paren.location⟩, ts.length)
          | some close =>
            let arguments := splitArguments paren (inner.take (close - 1))
            (.ok (.call keyword.location target last.text (some arguments)), passed + close + 1)
        else (.ok (.call keyword.location target last.text none), passed)

/-- Reads the agent whose keyword is `keyword`; `ts` follows it. -/
def readAgent (keyword : Token) (ts : List Token) : AgentReading :=
  match ts with
  | [] => (.error ⟨.incompleteAgent, keyword.location⟩, 0)
  | t :: _ =>
    if t.isKeyword inlineKeywords then (.ok (.inline keyword.location), 0)
    else if t.isSymbol [.openParen] then
      match matching? .openParen .closeParen ts with
      | none => (.error ⟨.unbalancedTarget, t.location⟩, 1)
      | some close =>
        match ts[close + 1]? with
        | none => (.error ⟨.targetWithoutDot, t.location⟩, close + 1)
        | some after =>
          if after.isSymbol [.colon] || after.isKeyword inlineKeywords then
            (.ok (.inline keyword.location), close + 1)
          else if after.isSymbol [.dot] then
            readCall keyword (.closed (renderTokens (ts.take (close + 1)))) ts (close + 2)
          else (.error ⟨.targetWithoutDot, after.location⟩, close + 1)
    else if t.isSymbol [.openBrace] then
      match matching? .openBrace .closeBrace ts with
      | none => (.error ⟨.malformedTypeTarget, t.location⟩, 1)
      | some close =>
        if (ts[close + 1]?).any (·.isSymbol [.dot]) then
          readCall keyword (.ofType (renderTokens ((ts.take close).drop 1))) ts (close + 2)
        else (.error ⟨.malformedTypeTarget, t.location⟩, 1)
    else readCall keyword .implicit ts 0

/-- An agent is written in place, or it is a call behind its target. -/
theorem readAgent_cases {keyword : Token} {ts : List Token} {a : Agent}
    (h : (readAgent keyword ts).1 = .ok a) :
    a = .inline keyword.location ∨
      ∃ target skip, readAgent keyword ts = readCall keyword target ts skip := by
  generalize hr : readAgent keyword ts = r at h ⊢
  unfold readAgent at hr
  split at hr
  · cases hr
    cases h
  split at hr
  · cases hr
    exact .inl (Except.ok.inj h).symm
  split at hr
  · split at hr
    · cases hr
      cases h
    split at hr
    · cases hr
      cases h
    split at hr
    · cases hr
      exact .inl (Except.ok.inj h).symm
    split at hr
    · exact .inr ⟨_, _, hr.symm⟩
    · cases hr
      cases h
  split at hr
  · split at hr
    · cases hr
      cases h
    split at hr
    · exact .inr ⟨_, _, hr.symm⟩
    · cases hr
      cases h
  · exact .inr ⟨_, _, hr.symm⟩

/-! ## 3. Quantifiers -/

/-- Whether a broken bar follows before the next quantifier and outside the brackets opened since;
`depth` of them are open. -/
def hasBarFrom (depth : Nat) : List Token → Bool
  | [] => false
  | t :: ts =>
    if t.isSymbol [.forAll, .thereExists] then false
    else if t.isSymbol [.openParen, .openBracket] then hasBarFrom (depth + 1) ts
    else if t.isSymbol [.closeParen, .closeBracket] then
      if depth = 0 then false else hasBarFrom (depth - 1) ts
    else if depth = 0 ∧ t.isSymbol [.brokenBar] then true
    else hasBarFrom depth ts

/-- Reads the quantifier `quantity` at `location`; `ts` follows its symbol. -/
def readQuantifier (quantity : Quantity) (location : Location) (ts : List Token) : Quantifier :=
  let cursor := ts.head?.filter Token.isIdentifier
  let rest := if cursor.isSome then ts.tail else ts
  { location := location
    quantity := quantity
    cursor := cursor.map Token.name
    hasColon := rest.head?.any (·.isSymbol [.colon])
    hasBar := hasBarFrom 0 rest }

/-- The quantifier whose symbol a token is. -/
def Token.quantity? (t : Token) : Option Quantity :=
  match t.kind with
  | .operator s => Quantity.ofSymbol? s
  | _ => none

/-! ## 4. The constructs of a span -/

/-- What the search through a span finds. -/
inductive Construct where
  | agent (agent : Agent)
  | quantifier (quantifier : Quantifier)
  | fault (error : SyntaxError)
deriving DecidableEq, Repr, Inhabited

/-- The construct of an agent that was read, or its fault. -/
def Construct.ofAgent : Except SyntaxError Agent → Construct
  | .ok a => .agent a
  | .error e => .fault e

/-- The agents and quantifiers of a span, in order. -/
def constructs (ts : List Token) : List Construct :=
  match ts with
  | [] => []
  | t :: rest =>
    if t.isKeyword [.kwAgent] then
      let reading := readAgent t rest
      .ofAgent reading.1 :: constructs (rest.drop reading.2)
    else match t.quantity? with
      | some q => .quantifier (readQuantifier q t.location rest) :: constructs rest
      | none => constructs rest
termination_by ts.length
decreasing_by all_goals simp only [List.length_drop, List.length_cons]; omega

namespace Construct

/-- The agents among constructs. -/
def agents (cs : List Construct) : List Agent :=
  cs.filterMap fun | agent a => some a | _ => none

/-- The quantifiers among constructs. -/
def quantifiers (cs : List Construct) : List Quantifier :=
  cs.filterMap fun | quantifier q => some q | _ => none

/-- The faults among constructs. -/
def faults (cs : List Construct) : List SyntaxError :=
  cs.filterMap fun | fault e => some e | _ => none

end Construct

end ContractLint
