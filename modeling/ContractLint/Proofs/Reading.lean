/-
# Reading a class step by step

The productions of a class text write their failures into one slot (`Production.fail`), and somebody
else empties it.  This file takes the reading of a class apart into single steps, so that what stands
in the slot can be followed from the failure of an attempt to its report.

* **Steps.**  A `Reading` is a parser with the stage it is at and a draft of the class.  A turn
  (`Reading.turn`) runs the productions of its stage.  If they return nothing, recovery is due, and
  the step after it (`Reading.recover`) reports whatever is in the slot, empties it, goes back to the
  mark and resumes.  The calls that the parser does not check (`attempt` without a retreat) would
  leave a failure in the slot.
* **Turns.**  Each turn has a lemma that says all it can do, in terms of the readers
  (`headerTurn_cases` to `declarationTurn_cases`).  It follows that every turn is lawful
  (`turn_lawful`): it moves on and leaves the slot alone, or it fills the slot and changes nothing
  else.
* **Invariant.**  `Reading.Tidy`: the slot is taken exactly while recovery is due, by a failure at a
  token from the mark on; and the errors balance.  Every step keeps it (`Tidy.step`), so it holds of
  every state that the reading reaches (`tidy_of_reaches`).
-/
import ContractLint.Proofs.ClauseProduction

namespace ContractLint

open ContractLint.Parser

/-! ## 1. Reading step by step -/

/-- Where the reading of a class stands. -/
inductive Stage where
  /-- In front of the header. -/
  | header
  /-- Behind the header. -/
  | generics
  /-- At the head of the loop over the parts of the class. -/
  | parts
  /-- At the head of the loop over the declarations of a clause, which holds what was read of it. -/
  | declarations (clause : Clause)
  /-- Behind the last part. -/
  | closed

/-- The stage at which reading resumes: a loop goes on, and a header is tried only once. -/
def Stage.resumed : Stage → Stage
  | header => generics
  | stage => stage

theorem Stage.generics_ne_closed : generics ≠ closed := by
  intro h
  cases h

theorem Stage.parts_ne_closed : parts ≠ closed := by
  intro h
  cases h

theorem Stage.declarations_ne_closed (clause : Clause) : declarations clause ≠ closed := by
  intro h
  cases h

theorem Stage.resumed_ne_closed {stage : Stage} (h : stage ≠ closed) : stage.resumed ≠ closed := by
  cases stage with
  | header => exact generics_ne_closed
  | generics => exact h
  | parts => exact h
  | declarations clause => exact h
  | closed => exact h

/-- What has been read of a class. -/
structure Draft where
  header : Option Header := none
  generics : List Name := []
  parents : List Name := []
  creators : List Name := []
  clauses : List Clause := []
  invariants : List Invariant := []

namespace Draft

/-- The draft with one more part. -/
def add (d : Draft) : Part → Draft
  | .parents names => { d with parents := d.parents ++ names }
  | .creators names => { d with creators := d.creators ++ names }
  | .clause clause => { d with clauses := d.clauses ++ [clause] }
  | .invariant inv => { d with invariants := d.invariants ++ [inv] }
  | .skipped => d

/-- The class of a draft that has a header. -/
def classDecl? (d : Draft) : Option ClassDecl :=
  d.header.map fun header =>
    { name := header.name
      kind := header.kind
      frozen := header.frozen
      generics := d.generics
      parents := d.parents
      creators := d.creators
      clauses := d.clauses
      invariant := Invariant.merge? d.invariants }

/-- Adding parts one after another collects what each kind of part holds. -/
theorem foldl_add : ∀ (ps : List Part) (d : Draft), ps.foldl add d =
    { d with
      parents := d.parents ++ Part.parentNames ps
      creators := d.creators ++ Part.creatorNames ps
      clauses := d.clauses ++ Part.clauses ps
      invariants := d.invariants ++ Part.invariants ps }
  | [], d => by simp [Part.parentNames, Part.creatorNames, Part.clauses, Part.invariants]
  | p :: ps, d => by
    rw [List.foldl_cons, foldl_add ps]
    cases p <;>
      simp [add, Part.parentNames, Part.creatorNames, Part.clauses, Part.invariants]

end Draft

/-- Where reading goes back to after a failed attempt: the mark, which is a number of items, and the
column in which siblings of the failed part start. -/
structure Retreat where
  mark : Nat
  column : Option Int := none

/-- The state of reading a class. -/
structure Reading extends Parser where
  stage : Stage
  draft : Draft := {}
  /-- Set while recovery from a failed attempt is due. -/
  retreat : Option Retreat := none
  /-- The tokens at which reading resumed. -/
  resumed : List Token := []

namespace Reading

open Production

/-- The start: a note in front of the class is passed. -/
def start (c : Cursor) : Reading where
  toParser := if c.atKeyword [.kwNote] then (classNote { text := c }).2 else { text := c }
  stage := .header

/-- Runs a production and goes on with what it returns.  If it returns nothing, recovery is due as
`retreat` says; a production that cannot fail is run without one. -/
def attempt {α : Type} (s : Reading) (P : Production α) (retreat : Option Retreat)
    (next : α → Reading → Reading) : Reading :=
  match P s.toParser with
  | (some a, p) => next a { s with toParser := p }
  | (none, p) => { s with toParser := p, retreat := retreat }

/-- The reading with one more part. -/
def add (part : Part) (s : Reading) : Reading :=
  { s with draft := s.draft.add part }

/-- Tries the header. -/
def headerTurn (s : Reading) : Reading :=
  s.attempt header (some { mark := s.pos }) fun header s =>
    { s with stage := .generics, draft := { s.draft with header := some header } }

/-- What may follow the header.  A class whose header could not be read has an empty name. -/
def afterHeader : Production (List Name) := do
  let names ← generics
  obsolete
  return names

def genericsTurn (s : Reading) : Reading :=
  let header := s.draft.header.getD { name := ⟨"", s.rest.peek.location⟩ }
  s.attempt afterHeader none fun names s =>
    { s with stage := .parts, draft := { s.draft with header := some header, generics := names } }

/-- Tries a clause of names.  Its keyword is not read again. -/
def nameTurn (s : Reading) (list : Production (List Name)) (part : List Name → Part) : Reading :=
  s.attempt (do let _ ← advance; nameClause list) (some { mark := s.pos + 1 }) fun names =>
    add (part names)

/-- Opens a clause for declarations outside any clause. -/
def openLoose (s : Reading) (location : Location) : Reading :=
  { s with stage := .declarations { kind := .implicit, location := location, features := [] } }

/-- Tries the part of the class that starts with the item `i`. -/
def partTurn (s : Reading) (i : Item) : Reading :=
  if i.token.isKeyword [.kwInherit] then s.nameTurn parents .parents
  else if i.token.isKeyword [.kwCreate] then s.nameTurn creators .creators
  else if i.token.isKeyword [.kwConvert] then s.attempt conversion none fun _ => add .skipped
  else if i.token.isKeyword [.kwFeature] then
    s.attempt clauseHead none fun clause s => { s with stage := .declarations clause }
  else if i.token.isKeyword [.kwInvariant] then
    s.attempt invariant none fun inv => add (.invariant inv)
  else if i.token.isKeyword [.kwNote] then s.attempt classNote none fun _ => add .skipped
  else if i.startsDeclaration then s.openLoose i.token.location
  else s.attempt (fail .unexpectedInClass) (some { mark := s.pos }) fun (_ : Unit) s => s

/-- Closes the class. -/
def close (s : Reading) : Reading :=
  { s with stage := .closed, errors := s.errors ++ closingErrors s.rest }

/-- Adds the clause whose declarations are all read. -/
def closeClause (s : Reading) (clause : Clause) : Reading :=
  { s with stage := .parts, draft := s.draft.add (.clause clause) }

/-- Tries the declaration that starts with the item `i`. -/
def declarationTurn (s : Reading) (clause : Clause) (i : Item) : Reading :=
  s.attempt (declaration i) (some { mark := s.pos, column := some i.token.column }) fun d s =>
    { s with stage := .declarations { clause with features := clause.features ++ d.features } }

/-- Tries what comes next, if the class is not closed. -/
def turn (s : Reading) : Option Reading :=
  match s.stage with
  | .header => some s.headerTurn
  | .generics => some s.genericsTurn
  | .parts =>
    match s.rest.items with
    | [] => some s.close
    | i :: _ => some (if i.token.isKeyword [.kwEnd] then s.close else s.partTurn i)
  | .declarations clause =>
    match s.rest.items with
    | [] => some (s.closeClause clause)
    | i :: _ =>
      some (if i.token.isKeyword boundaryKeywords then s.closeClause clause
        else s.declarationTurn clause i)
  | .closed => none

/-- The failure that is reported: the one in the slot.  If the slot is empty, nothing better is known
than the next token. -/
def flushed (s : Reading) : Failure :=
  s.pending.getD ⟨.unexpected s.rest.peek, s.rest.peek⟩

/-- The number of items in front of the place where reading resumes. -/
def resumption (s : Reading) (r : Retreat) : Nat :=
  r.mark + (s.text.drop r.mark).resumeLength r.column

/-- Reports what is in the slot, empties it and resumes. -/
def recover (s : Reading) (r : Retreat) : Reading :=
  { s with
    stage := s.stage.resumed
    pos := s.resumption r
    pending := none
    retreat := none
    errors := s.errors ++ [s.flushed.error]
    resumed := s.resumed ++ [(s.text.drop (s.resumption r)).peek] }

/-- One step of reading. -/
def step (s : Reading) : Option Reading :=
  match s.retreat with
  | some r => some (s.recover r)
  | none => s.turn

/-- Any number of steps. -/
def Reaches : Reading → Reading → Prop :=
  Relation.ReflTransGen fun s s' => s.step = some s'

/-! ## 2. What a turn does -/

/-- The errors of the end of the class, once it is reached. -/
def closing (s : Reading) : List SyntaxError :=
  match s.stage with
  | .closed => closingErrors s.rest
  | _ => []

/-- The class is closed at its `end` or at the end of the text. -/
def AtClose (s : Reading) : Prop :=
  s.rest.atEnd = true ∨ s.rest.atKeyword [.kwEnd] = true

end Reading

/-- Where a clause stands if it has a keyword. -/
def Clause.explicitPlaces (c : Clause) : List Location :=
  if c.kind == .explicit then [c.location] else []

namespace Reading

open Production

/-- Where the feature clauses stand that have been read or opened and that have a keyword. -/
def explicitPlaces (s : Reading) : List Location :=
  s.draft.clauses.flatMap Clause.explicitPlaces ++
    match s.stage with
    | .declarations clause => clause.explicitPlaces
    | _ => []

/-- What a turn that succeeds does: it moves on, resumes nowhere, leaves the slot alone, and reports
the agents that it could not read, or what is wrong with the end of the class.  It keeps the
feature keywords of the clauses. -/
structure Accepts (s s' : Reading) : Prop where
  text_eq : s'.text = s.text
  pending_eq : s'.pending = s.pending
  retreat_eq : s'.retreat = s.retreat
  resumed_eq : s'.resumed = s.resumed
  errors_eq : ∃ calls, s'.calls = s.calls ++ calls ∧
    s'.errors = s.errors ++ (failures calls ++ s'.closing)
  keeps : s.Keeps s.explicitPlaces → s'.Keeps s'.explicitPlaces
  atClose : s'.stage = .closed → s'.AtClose

/-- What a turn that fails does: it leaves the failure `e` in the slot, unless that was taken, and
recovery is due.  The failure was noticed at a token from the mark on, and the mark is where the turn
started or just behind the keyword there.  Nothing else changes but the place of the parser. -/
structure GivesUp (s s' : Reading) (e : SyntaxError) (r : Retreat) : Prop where
  stage_eq : s'.stage = s.stage
  draft_eq : s'.draft = s.draft
  text_eq : s'.text = s.text
  errors_eq : s'.errors = s.errors
  calls_eq : s'.calls = s.calls
  resumed_eq : s'.resumed = s.resumed
  retreat_eq : s'.retreat = some r
  mark_eq : r.mark = s.pos ∨ r.mark = s.pos + 1
  pending_eq : ∃ f : Failure, f.error = e ∧ f.token ∈ (s.text.drop r.mark).allTokens ∧
    s'.pending = (s.pending <|> some f)

/-- A turn does what it should. -/
def Lawful (s s' : Reading) : Prop :=
  s.Accepts s' ∨ ∃ e r, s.GivesUp s' e r

variable {s s' : Reading}

theorem closing_eq_nil (h : s.stage ≠ .closed) : s.closing = [] := by
  unfold closing
  split
  · contradiction
  · rfl

/-- A turn that moves on over `n` items, with a report on `calls`. -/
theorem accepts_of_moves {n : Nat} {calls : List (Except SyntaxError Agent)} {p : Parser}
    (hmoves : s.Moves n calls p) {stage : Stage} {draft : Draft} (hstage : stage ≠ .closed)
    (hplaces : ({ s with toParser := p, stage := stage, draft := draft } : Reading).explicitPlaces =
      s.explicitPlaces) :
    s.Accepts { s with toParser := p, stage := stage, draft := draft } where
  text_eq := hmoves.text_eq
  pending_eq := hmoves.pending_eq
  retreat_eq := rfl
  resumed_eq := rfl
  errors_eq := by
    refine ⟨calls, hmoves.calls_eq, ?_⟩
    rw [closing_eq_nil hstage, List.append_nil]
    exact hmoves.errors_eq
  keeps hkeeps := hplaces ▸ hmoves.keeps _ hkeeps
  atClose h := absurd h hstage

theorem accepts_close (h : s.AtClose) (hplaces : s.close.explicitPlaces = s.explicitPlaces) :
    s.Accepts s.close where
  text_eq := rfl
  pending_eq := rfl
  retreat_eq := rfl
  resumed_eq := rfl
  errors_eq := ⟨[], (List.append_nil _).symm, rfl⟩
  keeps hkeeps := hplaces ▸ hkeeps
  atClose _ := h

section

variable {α γ : Type} {view : γ → Outcome α} {P : Production α} {r : Option Retreat}
  {next : α → Reading → Reading}

/-- What passes returns something. -/
theorem attempt_of_passes {s₀ : Parser} {o : Outcome α} (h : s₀.Passes o (P s.toParser)) :
    ∃ p, s₀.Moves o.taken o.calls p ∧
      s.attempt P r next = next o.value { s with toParser := p } := by
  obtain ⟨p, hp, hmoves⟩ := h
  refine ⟨p, hmoves, ?_⟩
  rw [attempt, hp]

/-- What fails returns nothing. -/
theorem attempt_of_fails {s₀ : Parser} {e : SyntaxError}
    (h : ∃ p, P s.toParser = (none, p) ∧ s₀.Fails e p) :
    ∃ p, s₀.Fails e p ∧ s.attempt P r next = { s with toParser := p, retreat := r } := by
  obtain ⟨p, hp, hfails⟩ := h
  refine ⟨p, hfails, ?_⟩
  rw [attempt, hp]

/-- A failure that was met behind `n` items, if the mark is there. -/
theorem givesUp_of_fails {n : Nat} {e : SyntaxError} {p : Parser} (hn : n ≤ 1)
    (hfails : (s.move n).Fails e p) (column : Option Int) :
    s.GivesUp { s with toParser := p, retreat := some { mark := s.pos + n, column := column } } e
      { mark := s.pos + n, column := column } where
  stage_eq := rfl
  draft_eq := rfl
  text_eq := hfails.text_eq
  errors_eq := hfails.errors_eq
  calls_eq := hfails.calls_eq
  resumed_eq := rfl
  retreat_eq := rfl
  mark_eq := by
    change s.pos + n = s.pos ∨ s.pos + n = s.pos + 1
    omega
  pending_eq := hfails.pending_eq

/-- A checked call of what agrees with a reader. -/
theorem attempt_cases {x : Except SyntaxError γ} {n : Nat} (hn : n ≤ 1)
    (hstart : s.Moves n [] (s.move n)) (h : (s.move n).Agrees view x (P s.toParser))
    (column : Option Int) :
    (∃ y p, x = .ok y ∧ s.Moves (n + (view y).taken) (view y).calls p ∧
      s.attempt P (some { mark := s.pos + n, column := column }) next =
        next (view y).value { s with toParser := p }) ∨
    (∃ e, x = .error e ∧ s.GivesUp
      (s.attempt P (some { mark := s.pos + n, column := column }) next) e
      { mark := s.pos + n, column := column }) := by
  cases x with
  | ok y =>
    obtain ⟨p, hmoves, hattempt⟩ := attempt_of_passes (s := s) (P := P) h
    exact .inl ⟨y, p, rfl, hstart.trans hmoves, hattempt⟩
  | error e =>
    obtain ⟨p, hfails, hattempt⟩ := attempt_of_fails (s := s) (P := P) h
    refine .inr ⟨e, rfl, ?_⟩
    rw [hattempt]
    exact givesUp_of_fails hn hfails column

end

/-- The header is read, or it is given up. -/
theorem headerTurn_cases (s : Reading) :
    (∃ header n p, readHeader s.rest = .ok (header, n) ∧ s.Moves n [] p ∧ s.headerTurn =
      { s with toParser := p, stage := .generics, draft := { s.draft with header := some header } }) ∨
    (∃ e, readHeader s.rest = .error e ∧ s.GivesUp s.headerTurn e { mark := s.pos }) := by
  rcases attempt_cases (s := s) (P := header) (Nat.zero_le 1) (.refl _) header_agrees none with
    ⟨⟨header, n⟩, p, hread, hmoves, hturn⟩ | h
  · exact .inl ⟨header, n, p, hread, hmoves.cast (Nat.zero_add n), hturn⟩
  · exact .inr h

theorem afterHeader_passes (s : Parser) :
    s.Passes ⟨(readGenerics s.rest).1, (readGenerics s.rest).2 +
      obsoleteLength (s.rest.drop (readGenerics s.rest).2), []⟩ (afterHeader s) := by
  unfold afterHeader
  refine Passes.bind_first generics_passes fun s₁ h₁ => ?_
  refine Passes.bind h₁ obsolete_passes fun s₂ h₂ => ?_
  rw [h₁.rest_eq] at h₂
  exact ⟨s₂, rfl, h₂⟩

/-- What follows the header is read. -/
theorem genericsTurn_eq (s : Reading) :
    ∃ p, s.Moves ((readGenerics s.rest).2 + obsoleteLength (s.rest.drop (readGenerics s.rest).2)) [] p ∧
      s.genericsTurn = { s with
        toParser := p
        stage := .parts
        draft := { s.draft with
          header := some (s.draft.header.getD { name := ⟨"", s.rest.peek.location⟩ })
          generics := (readGenerics s.rest).1 } } := by
  unfold genericsTurn
  exact attempt_of_passes (s := s) (afterHeader_passes s.toParser)

/-- A clause of names is read, or it is given up behind its keyword. -/
theorem nameTurn_cases {readList : Cursor → Except SyntaxError (List Name × Nat)}
    {list : Production (List Name)} (hlist : ∀ s : Parser, s.Agrees .ofPair (readList s.rest) (list s))
    (part : List Name → Part) {i : Item} {is : List Item} (hi : s.rest.items = i :: is)
    (hplain : i.opensClause = false) :
    (∃ names p, readNameClause readList s.rest = .ok names ∧ s.Moves names.taken [] p ∧
      s.nameTurn list part =
        { s with toParser := p, draft := s.draft.add (part names.value) }) ∨
    (∃ e, readNameClause readList s.rest = .error e ∧
      s.GivesUp (s.nameTurn list part) e { mark := s.pos + 1 }) := by
  have hfirst : s.Moves 1 [] (s.move 1) := by
    refine .of_plain fun j hj => ?_
    rw [hi] at hj
    rwa [List.mem_singleton.mp hj]
  have hagrees := nameClause_agrees hlist s.toParser
  rw [← bind_of_some (Q := fun _ => nameClause list) (advance_of_cons hi)] at hagrees
  rcases attempt_cases (s := s) (P := do let _ ← advance; nameClause list) (Nat.le_refl 1) hfirst
    hagrees none with ⟨names, p, hread, hmoves, hturn⟩ | h
  · exact .inl ⟨names, p, hread, hmoves.cast (Nat.add_sub_of_le names.taken_pos), hturn⟩
  · exact .inr h

/-- A feature clause is opened. -/
theorem openClause_eq {i : Item} {is : List Item} (hi : s.rest.items = i :: is) :
    ∃ p, (s.move 1).Moves (readClients s.rest.next).2 [] p ∧
      s.attempt clauseHead none (fun clause s => { s with stage := .declarations clause }) =
        { s with
          toParser := p
          stage := .declarations {
            kind := .explicit
            location := s.rest.peek.location
            category := (s.rest.last? (1 + (readClients s.rest.next).2)).bind Item.category?
            clients := (readClients s.rest.next).1
            features := [] } } := by
  obtain ⟨p, hhead, hmoves⟩ := clauseHead_passes hi
  refine ⟨p, hmoves, ?_⟩
  rw [attempt, hhead]

/-- A token that starts no part is given up. -/
theorem unexpected_givesUp (s : Reading) :
    s.GivesUp (s.attempt (fail .unexpectedInClass) (some { mark := s.pos }) fun (_ : Unit) s => s)
      ⟨.unexpectedInClass s.rest.peek, s.rest.peek.location⟩ { mark := s.pos } :=
  givesUp_of_fails (Nat.zero_le 1) (fails_fail .unexpectedInClass s.toParser) none

/-- A declaration is read, or it is given up. -/
theorem declarationTurn_cases (s : Reading) (clause : Clause) (i : Item) :
    (∃ d p, readDeclaration i s.rest = .ok d ∧ s.Moves d.taken d.value.calls p ∧
      s.declarationTurn clause i = { s with
        toParser := p
        stage := .declarations { clause with features := clause.features ++ d.value.features } }) ∨
    (∃ e, readDeclaration i s.rest = .error e ∧
      s.GivesUp (s.declarationTurn clause i) e { mark := s.pos, column := some i.token.column }) := by
  rcases attempt_cases (s := s) (P := declaration i) (Nat.zero_le 1) (.refl _)
    (declaration_agrees i) (some i.token.column) with ⟨d, p, hread, hmoves, hturn⟩ | h
  · exact .inl ⟨d, p, hread, hmoves.cast (Nat.zero_add _), hturn⟩
  · exact .inr h

/-! ### Turns are lawful -/

/-- A turn that reads or gives up is lawful if it is where it reads. -/
theorem nameTurn_lawful {readList : Cursor → Except SyntaxError (List Name × Nat)}
    {list : Production (List Name)} (hlist : ∀ s : Parser, s.Agrees .ofPair (readList s.rest) (list s))
    {part : List Name → Part} (hpart : ∀ names, (s.draft.add (part names)).clauses = s.draft.clauses)
    {i : Item} {is : List Item} (hi : s.rest.items = i :: is) (hplain : i.opensClause = false)
    (hs : s.stage ≠ .closed) : s.Lawful (s.nameTurn list part) := by
  rcases nameTurn_cases hlist part hi hplain with ⟨names, p, -, hmoves, hturn⟩ | ⟨e, -, hgives⟩
  · rw [hturn]
    refine .inl (accepts_of_moves hmoves hs ?_)
    unfold explicitPlaces
    rw [hpart]
  · exact .inr ⟨e, _, hgives⟩

theorem headerTurn_lawful (hs : s.stage = .header) : s.Lawful s.headerTurn := by
  have hplaces : s.explicitPlaces = s.draft.clauses.flatMap Clause.explicitPlaces ++ [] := by
    rw [explicitPlaces, hs]
  rcases headerTurn_cases s with ⟨header, n, p, -, hmoves, hturn⟩ | ⟨e, -, hgives⟩
  · rw [hturn]
    exact .inl (accepts_of_moves hmoves Stage.generics_ne_closed hplaces.symm)
  · exact .inr ⟨e, _, hgives⟩

theorem genericsTurn_accepts (hs : s.stage = .generics) : s.Accepts s.genericsTurn := by
  have hplaces : s.explicitPlaces = s.draft.clauses.flatMap Clause.explicitPlaces ++ [] := by
    rw [explicitPlaces, hs]
  obtain ⟨p, hmoves, hturn⟩ := genericsTurn_eq s
  rw [hturn]
  exact accepts_of_moves hmoves Stage.parts_ne_closed hplaces.symm

/-- What passes and changes neither stage nor clauses. -/
theorem attempt_accepts {α : Type} {P : Production α} {o : Outcome α} {r : Option Retreat}
    {part : α → Part} (h : s.Passes o (P s.toParser)) (hs : s.stage ≠ .closed)
    (hpart : (s.draft.add (part o.value)).clauses = s.draft.clauses) :
    s.Accepts (s.attempt P r fun a => add (part a)) := by
  obtain ⟨p, hmoves, hattempt⟩ := attempt_of_passes (s := s) (P := P) h
  rw [hattempt]
  refine accepts_of_moves hmoves hs ?_
  unfold explicitPlaces
  rw [hpart]

theorem openClause_accepts {i : Item} {is : List Item} (hi : s.rest.items = i :: is)
    (hopens : i.opensClause = true) (hs : s.stage = .parts) :
    s.Accepts (s.attempt clauseHead none fun clause s => { s with stage := .declarations clause }) := by
  obtain ⟨p, hmoves, hturn⟩ := openClause_eq hi
  have hpeek : s.rest.peek = i.token := by simp [Cursor.peek, hi]
  rw [hturn]
  refine ⟨hmoves.text_eq, hmoves.pending_eq, rfl, rfl, ⟨[], hmoves.calls_eq, hmoves.errors_eq⟩, ?_,
    fun h => absurd h (Stage.declarations_ne_closed _)⟩
  intro hkeeps
  have hkept := hmoves.keeps _ (keeps_move_one hi hopens hkeeps)
  unfold explicitPlaces at hkept ⊢
  rw [hs, List.append_nil, ← hpeek] at hkept
  exact hkept

theorem partTurn_lawful {i : Item} {is : List Item} (hi : s.rest.items = i :: is)
    (hs : s.stage = .parts) : s.Lawful (s.partTurn i) := by
  have hopen : s.stage ≠ .closed := hs ▸ Stage.parts_ne_closed
  have hat : ∀ {ws}, i.token.isKeyword ws = true → s.rest.atKeyword ws = true := by
    intro ws h
    simpa [Cursor.atKeyword, Cursor.test, hi] using h
  unfold partTurn
  split
  · rename_i hinherit
    exact nameTurn_lawful (fun _ => parents_agrees) (fun _ => rfl) hi
      (Token.isKeyword_of_disjoint hinherit (by decide)) hopen
  split
  · rename_i hcreate
    exact nameTurn_lawful (fun _ => creators_agrees) (fun _ => rfl) hi
      (Token.isKeyword_of_disjoint hcreate (by decide)) hopen
  split
  · rename_i hconvert
    exact .inl (attempt_accepts (conversion_passes (hat hconvert)) hopen rfl)
  split
  · rename_i hfeature
    exact .inl (openClause_accepts hi hfeature hs)
  split
  · rename_i hinvariant
    exact .inl (attempt_accepts (invariant_passes (hat hinvariant)) hopen rfl)
  split
  · rename_i hnote
    exact .inl (attempt_accepts (classNote_passes (hat hnote)) hopen rfl)
  split
  · refine .inl (accepts_of_moves (Moves.refl _) (Stage.declarations_ne_closed _) ?_)
    unfold explicitPlaces
    rw [hs]
    rfl
  · exact .inr ⟨_, _, unexpected_givesUp s⟩

theorem declarationTurn_lawful {clause : Clause} (hs : s.stage = .declarations clause) (i : Item) :
    s.Lawful (s.declarationTurn clause i) := by
  rcases declarationTurn_cases s clause i with ⟨d, p, -, hmoves, hturn⟩ | ⟨e, -, hgives⟩
  · rw [hturn]
    refine .inl (accepts_of_moves hmoves (Stage.declarations_ne_closed _) ?_)
    unfold explicitPlaces
    rw [hs]
    rfl
  · exact .inr ⟨e, _, hgives⟩

theorem closeClause_accepts {clause : Clause} (hs : s.stage = .declarations clause) :
    s.Accepts (s.closeClause clause) := by
  refine accepts_of_moves (Moves.refl _) Stage.parts_ne_closed ?_
  unfold explicitPlaces
  rw [hs]
  simp [Draft.add]

/-- **Every turn is lawful**, at every stage. -/
theorem turn_lawful (h : s.turn = some s') : s.Lawful s' := by
  unfold turn at h
  split at h
  · cases h
    exact headerTurn_lawful ‹_›
  · cases h
    exact .inl (genericsTurn_accepts ‹_›)
  · rename_i hs
    have hplaces : s.close.explicitPlaces = s.explicitPlaces := by
      unfold explicitPlaces
      rw [hs]
      rfl
    split at h
    · rename_i hi
      cases h
      exact .inl (accepts_close (.inl (by simp [Cursor.atEnd, hi])) hplaces)
    · rename_i i is hi
      cases h
      split
      · rename_i hend
        refine .inl (accepts_close (.inr ?_) hplaces)
        simpa [Cursor.atKeyword, Cursor.test, hi] using hend
      · exact partTurn_lawful hi hs
  · rename_i clause hs
    split at h
    · cases h
      exact .inl (closeClause_accepts hs)
    · cases h
      split
      · exact .inl (closeClause_accepts hs)
      · exact declarationTurn_lawful hs _
  · cases h

theorem stage_ne_closed_of_turn (h : s.turn = some s') : s.stage ≠ .closed := by
  intro hs
  rw [turn, hs] at h
  cases h

/-- All that a step can do. -/
theorem step_cases (h : s.step = some s') :
    (∃ r, s.retreat = some r ∧ s' = s.recover r) ∨ (s.retreat = none ∧ s.turn = some s') := by
  unfold step at h
  split at h
  · rename_i r hr
    exact .inl ⟨r, hr, (Option.some.inj h).symm⟩
  · exact .inr ⟨‹_›, h⟩

/-! ## 3. What every state has -/

/-- In the reading of the text `c`, the slot is taken exactly while recovery is due, and the errors
balance.  As long as nothing was given up, the feature keywords of the clauses are kept. -/
structure Tidy (s : Reading) (c : Cursor) : Prop where
  text_eq : s.text = c
  idle : s.retreat = none → s.pending = none
  noticed : ∀ r, s.retreat = some r →
    ∃ f, s.pending = some f ∧ f.token ∈ (c.drop r.mark).allTokens
  balance : s.errors.length = s.resumed.length + (failures s.calls).length + s.closing.length
  keeps : s.resumed = [] → s.retreat = none → s.Keeps s.explicitPlaces
  closed : s.stage = .closed → s.retreat = none ∧ s.AtClose

/-- The start stands behind the note. -/
theorem start_moves (c : Cursor) : ({ text := c } : Parser).Moves
    (if c.atKeyword [.kwNote] then classNoteLength c else 0) [] (start c).toParser := by
  unfold start
  dsimp only
  split
  · rename_i hnote
    obtain ⟨p, hp, hmoves⟩ := classNote_passes (s := { text := c }) hnote
    rw [hp]
    exact hmoves
  · exact .refl _

theorem tidy_start (c : Cursor) : (start c).Tidy c where
  text_eq := (start_moves c).text_eq
  idle _ := (start_moves c).pending_eq
  noticed r hr := by cases hr
  balance := by
    rw [(start_moves c).errors_eq, (start_moves c).calls_eq]
    rfl
  keeps _ _ := (start_moves c).keeps [] (.nil _)
  closed hs := by cases hs

namespace Tidy

variable {c : Cursor}

theorem accept (h : s.Tidy c) (hr : s.retreat = none) (hs : s.stage ≠ .closed)
    (ha : s.Accepts s') : s'.Tidy c where
  text_eq := ha.text_eq.trans h.text_eq
  idle _ := ha.pending_eq.trans (h.idle hr)
  noticed r hr' := by
    rw [ha.retreat_eq, hr] at hr'
    cases hr'
  balance := by
    obtain ⟨calls, hcalls, herrors⟩ := ha.errors_eq
    have hbalance := h.balance
    rw [closing_eq_nil hs, List.length_nil, Nat.add_zero] at hbalance
    rw [herrors, hcalls, ha.resumed_eq, failures_append]
    simp only [List.length_append]
    omega
  keeps hresumed _ := ha.keeps (h.keeps (ha.resumed_eq ▸ hresumed) hr)
  closed hs' := ⟨ha.retreat_eq.trans hr, ha.atClose hs'⟩

/-- A failed attempt leaves its failure in the slot, and nothing is reported yet. -/
theorem giveUp {e : SyntaxError} {r : Retreat} (h : s.Tidy c) (hr : s.retreat = none)
    (hs : s.stage ≠ .closed) (hg : s.GivesUp s' e r) : s'.Tidy c where
  text_eq := hg.text_eq.trans h.text_eq
  idle hr' := by
    rw [hg.retreat_eq] at hr'
    cases hr'
  noticed r' hr' := by
    obtain ⟨f, -, hmem, hpending⟩ := hg.pending_eq
    rw [hg.retreat_eq] at hr'
    cases hr'
    refine ⟨f, ?_, h.text_eq ▸ hmem⟩
    rw [hpending, h.idle hr]
    rfl
  balance := by
    have hs' : s'.stage ≠ .closed := hg.stage_eq.symm ▸ hs
    have hbalance := h.balance
    rw [closing_eq_nil hs] at hbalance
    rw [hg.errors_eq, hg.resumed_eq, hg.calls_eq, closing_eq_nil hs']
    exact hbalance
  keeps _ hr' := by
    rw [hg.retreat_eq] at hr'
    cases hr'
  closed hs' := absurd (hg.stage_eq ▸ hs') hs

/-- Recovery reports one error and resumes once. -/
theorem recover {r : Retreat} (h : s.Tidy c) (hr : s.retreat = some r) : (s.recover r).Tidy c := by
  -- Recovery is never due once the class is closed, so no error of its end is lost or repeated.
  have hs : s.stage ≠ .closed := by
    intro hs
    rw [(h.closed hs).1] at hr
    cases hr
  have hs' : (s.recover r).stage ≠ .closed := Stage.resumed_ne_closed hs
  refine ⟨h.text_eq, fun _ => rfl, nofun, ?_, fun hresumed => ?_, fun hclosed => absurd hclosed hs'⟩
  · have hbalance := h.balance
    rw [closing_eq_nil hs] at hbalance
    rw [closing_eq_nil hs']
    change (s.errors ++ [s.flushed.error]).length = (s.resumed ++ [_]).length + _ + _
    simp only [List.length_append, List.length_singleton, List.length_nil] at hbalance ⊢
    change _ = _ + (failures s.calls).length + 0
    omega
  · exact absurd hresumed (List.append_ne_nil_of_right_ne_nil _ (List.cons_ne_nil _ _))

/-- **A step keeps a reading tidy.** -/
theorem step (h : s.Tidy c) (hstep : s.step = some s') : s'.Tidy c := by
  obtain ⟨r, hr, rfl⟩ | ⟨hr, hturn⟩ := step_cases hstep
  · exact h.recover hr
  · rcases turn_lawful hturn with ha | ⟨e, r, hg⟩
    · exact h.accept hr (stage_ne_closed_of_turn hturn) ha
    · exact h.giveUp hr (stage_ne_closed_of_turn hturn) hg

end Tidy

/-- **Every state that the reading of a class reaches is tidy.** -/
theorem tidy_of_reaches {c : Cursor} (h : (start c).Reaches s) : s.Tidy c := by
  induction h with
  | refl => exact tidy_start c
  | tail _ hstep ih => exact ih.step hstep

end Reading

end ContractLint
