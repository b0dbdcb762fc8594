/-
# A failed attempt leaves nothing but one error

A `Reading` goes through a class text turn by turn, with one slot for the failure of an attempt.  This
file proves that its steps read what `readClass` reads: `reaches_closed` follows the two loops by
their own induction principles and ends with the class, errors and resumptions of `readClass`.  With
the invariant of all states (`Reading.tidy_of_reaches`), `failed_attempts_cost_one_error` is the
result for the tokens of every text.
-/
import ContractLint.Proofs.Reading

namespace ContractLint

open ContractLint.Parser

namespace Reading

open Production

variable {s s' : Reading}

/-! ## 1. The steps read the class -/

/-- The slot is empty, and no recovery is due. -/
structure Idle (s : Reading) : Prop where
  pending_eq : s.pending = none
  retreat_eq : s.retreat = none

theorem Idle.step_eq (hs : s.Idle) : s.step = s.turn := by
  rw [step, hs.retreat_eq]

/-- A step after which recovery is due is a turn that gave up. -/
theorem Idle.exists_givesUp {r : Retreat} (hs : s.Idle) (hstep : s.step = some s')
    (hr : s'.retreat = some r) : ∃ e, s.GivesUp s' e r := by
  rcases turn_lawful (hs.step_eq.symm.trans hstep) with haccepts | ⟨e, r', hgives⟩
  · rw [haccepts.retreat_eq, hs.retreat_eq] at hr
    cases hr
  · rw [hgives.retreat_eq] at hr
    cases hr
    exact ⟨e, hgives⟩

/-- What comes of a turn that gives up: its error is in the report, and reading has resumed. -/
structure GivesUp.Resumes (s t : Reading) (e : SyntaxError) (r : Retreat) : Prop where
  stage_eq : t.stage = s.stage.resumed
  draft_eq : t.draft = s.draft
  idle : t.Idle
  errors_eq : t.errors = s.errors ++ [e]
  rest_eq : t.rest = s.text.drop (s.resumption r)
  resumed_eq : t.resumed = s.resumed ++ [t.rest.peek]

theorem GivesUp.resumes {e : SyntaxError} {r : Retreat} (hs : s.Idle) (hg : s.GivesUp s' e r) :
    s'.step = some (s'.recover r) ∧ GivesUp.Resumes s (s'.recover r) e r := by
  obtain ⟨f, rfl, -, hpending⟩ := hg.pending_eq
  rw [hs.pending_eq] at hpending
  have hflushed : s'.flushed = f := by
    rw [flushed, hpending]
    rfl
  have hrest : (s'.recover r).rest = s.text.drop (s.resumption r) := by
    change s'.text.drop (s'.resumption r) = _
    rw [resumption, hg.text_eq]
    rfl
  refine ⟨?_, ?_, hg.draft_eq, ⟨rfl, rfl⟩, ?_, hrest, ?_⟩
  · rw [step, hg.retreat_eq]
  · change s'.stage.resumed = _
    rw [hg.stage_eq]
  · change s'.errors ++ [s'.flushed.error] = _
    rw [hg.errors_eq, hflushed]
  · change s'.resumed ++ [_] = _
    rw [hg.resumed_eq]
    rfl

/-- `s.Reads s' n errors resumed`: steps lead from `s` to `s'`, over `n` items, and report `errors`
and `resumed`. -/
structure Reads (s s' : Reading) (n : Nat) (errors : List SyntaxError) (resumed : List Token) :
    Prop where
  reaches : s.Reaches s'
  idle : s'.Idle
  rest_eq : s'.rest = s.rest.drop n
  errors_eq : s'.errors = s.errors ++ errors
  resumed_eq : s'.resumed = s.resumed ++ resumed

namespace Reads

variable {s'' : Reading} {m n : Nat} {es es' : List SyntaxError} {rs rs' : List Token}

theorem trans (h : s.Reads s' m es rs) (h' : s'.Reads s'' n es' rs') :
    s.Reads s'' (m + n) (es ++ es') (rs ++ rs') where
  reaches := h.reaches.trans h'.reaches
  idle := h'.idle
  rest_eq := by rw [h'.rest_eq, h.rest_eq, Cursor.drop_add]
  errors_eq := by rw [h'.errors_eq, h.errors_eq, List.append_assoc]
  resumed_eq := by rw [h'.resumed_eq, h.resumed_eq, List.append_assoc]

/-- One step that leaves the slot empty. -/
theorem of_turn (hs : s.Idle) (h : s.turn = some s') (hs' : s'.Idle)
    (hrest : s'.rest = s.rest.drop n) (herrors : s'.errors = s.errors ++ es)
    (hresumed : s'.resumed = s.resumed) : s.Reads s' n es [] where
  reaches := .single (hs.step_eq.trans h)
  idle := hs'
  rest_eq := hrest
  errors_eq := herrors
  resumed_eq := hresumed.trans (List.append_nil _).symm

/-- One step of a parser that moves on. -/
theorem of_moves {calls : List (Except SyntaxError Agent)} {p : Parser} {stage : Stage}
    {draft : Draft} (hs : s.Idle) (hmoves : s.Moves n calls p)
    (h : s.turn = some { s with toParser := p, stage := stage, draft := draft }) :
    s.Reads { s with toParser := p, stage := stage, draft := draft } n (failures calls) [] :=
  of_turn hs h ⟨hmoves.pending_eq.trans hs.pending_eq, hs.retreat_eq⟩ hmoves.rest_eq
    hmoves.errors_eq rfl

/-- Two steps, a turn that gives up and the recovery from it. -/
theorem of_givesUp {e : SyntaxError} {r : Retreat} (hs : s.Idle) (h : s.turn = some s')
    (hg : s.GivesUp s' e r) (hn : s.resumption r = s.pos + n) :
    s.Reads (s'.recover r) n [e] [(s.rest.drop n).peek] := by
  obtain ⟨hstep, hresumes⟩ := hg.resumes hs
  have hrest : (s'.recover r).rest = s.rest.drop n := by
    rw [hresumes.rest_eq, hn, Cursor.drop_add]
    rfl
  refine ⟨.tail (.single (hs.step_eq.trans h)) hstep, hresumes.idle, hrest, hresumes.errors_eq, ?_⟩
  rw [hresumes.resumed_eq, hrest]

end Reads

/-- From an item that is no boundary, reading resumes behind what is passed over. -/
theorem resumeLength_eq_passLength {c : Cursor} {i : Item} {is : List Item}
    (hc : c.items = i :: is) (hi : i.token.isKeyword boundaryKeywords = false)
    (column : Option Int) : c.resumeLength column = passLength column i is := by
  have hhard : i.token.isKeyword hardBoundaries = false := by
    cases hk : i.token.kind with
    | keyword w =>
      simp only [Token.isKeyword, hk] at hi ⊢
      revert hi
      cases w <;> decide
    | _ => simp [Token.isKeyword, hk]
  have hresumes : resumesAt none {} i = false := by
    simp [resumesAt, hhard, hi, Item.isSibling]
  rw [Cursor.resumeLength, hc]
  simp [hresumes]

/-- Steps read the part `r` of the class and come back to the loop over the parts. -/
def ReadsPart (s : Reading) (r : Recovered Part) : Prop :=
  ∃ s', s.Reads s' r.taken r.errors r.resumed ∧ s'.stage = .parts ∧ s'.draft = s.draft.add r.value

/-- A clause that is closed. -/
theorem readsPart_closeClause {clause : Clause} (hs : s.Idle)
    (h : s.turn = some (s.closeClause clause)) : s.ReadsPart ⟨.clause clause, 0, [], []⟩ :=
  ⟨_, .of_turn hs h ⟨hs.pending_eq, hs.retreat_eq⟩ rfl (List.append_nil _).symm rfl, rfl, rfl⟩

/-- **The loop over declarations**, turn by turn. -/
theorem readsPart_declarations {clause : Clause} (hstage : s.stage = .declarations clause)
    (hs : s.Idle) :
    s.ReadsPart { readFeatures s.rest with
      value := .clause
        { clause with features := clause.features ++ (readFeatures s.rest).value } } := by
  -- The induction is that of the loop, for every state: the open clause grows from turn to turn.
  generalize hc : s.rest = c
  fun_induction readFeatures c generalizing s clause with
  | case1 c hitems =>
    have hturn : s.turn = some (s.closeClause clause) := by simp [turn, hstage, hc, hitems]
    simpa using readsPart_closeClause hs hturn
  | case2 c i is hitems hpos hi =>
    have hturn : s.turn = some (s.closeClause clause) := by simp [turn, hstage, hc, hitems, hi]
    simpa using readsPart_closeClause hs hturn
  | case3 c i is hitems hpos hi d hd rest =>
    rename_i ih
    have hturn : s.turn = some (s.declarationTurn clause i) := by
      simp [turn, hstage, hc, hitems, hi]
    rcases declarationTurn_cases s clause i with ⟨d', p, hread, hmoves, heq⟩ | ⟨e, hread, -⟩
    · rw [hc, hd] at hread
      cases hread
      have hfirst := Reads.of_moves hs hmoves (hturn.trans (congrArg some heq))
      rw [← readDeclaration_errors hd] at hfirst
      obtain ⟨s', hrest, hparts, hdraft⟩ := ih rfl hfirst.idle (by rw [hfirst.rest_eq, hc])
      refine ⟨s', hfirst.trans hrest, hparts, hdraft.trans ?_⟩
      simp [rest]
    · rw [hc, hd] at hread
      cases hread
  | case4 c i is hitems hpos hi e he n =>
    rename_i rest ih
    have hturn : s.turn = some (s.declarationTurn clause i) := by
      simp [turn, hstage, hc, hitems, hi]
    rcases declarationTurn_cases s clause i with ⟨d, p, hread, -, -⟩ | ⟨e', hread, hgives⟩
    · rw [hc, he] at hread
      cases hread
    · rw [hc, he] at hread
      cases hread
      have hn : s.resumption { mark := s.pos, column := some i.token.column } = s.pos + n := by
        change s.pos + (s.rest).resumeLength (some i.token.column) = s.pos + n
        rw [hc, resumeLength_eq_passLength hitems (by simpa using hi)]
      have hfirst := Reads.of_givesUp hs hturn hgives hn
      obtain ⟨-, hresumes⟩ := hgives.resumes hs
      have hstage' : ((s.declarationTurn clause i).recover
          { mark := s.pos, column := some i.token.column }).stage = .declarations clause := by
        rw [hresumes.stage_eq, hstage]
        rfl
      rw [hc] at hfirst
      obtain ⟨s', hrest, hparts, hdraft⟩ := ih hstage' hfirst.idle (by rw [hfirst.rest_eq, hc])
      exact ⟨s', hfirst.trans hrest, hparts, hdraft.trans (by rw [hresumes.draft_eq])⟩

/-- A part that is read in one step. -/
theorem readsPart_of_moves {part : Part} {n : Nat} {calls : List (Except SyntaxError Agent)}
    {p : Parser} (hs : s.Idle) (hstage : s.stage = .parts) (hmoves : s.Moves n calls p)
    (h : s.turn = some { s with toParser := p, draft := s.draft.add part }) :
    s.ReadsPart ⟨part, n, failures calls, []⟩ :=
  ⟨_, .of_moves hs hmoves h, hstage, rfl⟩

/-- A part that is given up. -/
theorem readsPart_of_givesUp {e : SyntaxError} {r : Retreat} {n : Nat} (hs : s.Idle)
    (hstage : s.stage = .parts) (h : s.turn = some s') (hg : s.GivesUp s' e r)
    (hn : s.resumption r = s.pos + n) : s.ReadsPart (ContractLint.recover s.rest n e) := by
  obtain ⟨-, hresumes⟩ := hg.resumes hs
  refine ⟨_, .of_givesUp hs h hg hn, ?_, hresumes.draft_eq⟩
  rw [hresumes.stage_eq, hstage]
  rfl

theorem readsPart_names {readList : Cursor → Except SyntaxError (List Name × Nat)}
    {list : Production (List Name)} (hlist : ∀ s : Parser, s.Agrees .ofPair (readList s.rest) (list s))
    {part : List Name → Part} {i : Item} {is : List Item} (hs : s.Idle) (hstage : s.stage = .parts)
    (hi : s.rest.items = i :: is) (hplain : i.opensClause = false)
    (h : s.turn = some (s.nameTurn list part)) :
    s.ReadsPart (match readNameClause readList s.rest with
      | .ok names => ⟨part names.value, names.taken, [], []⟩
      | .error e => ContractLint.recover s.rest (1 + s.rest.next.resumeLength none) e) := by
  rcases nameTurn_cases hlist part hi hplain with ⟨names, p, hread, hmoves, hturn⟩ | ⟨e, hread, hgives⟩
  · rw [hread]
    exact readsPart_of_moves hs hstage hmoves (h.trans (congrArg some hturn))
  · rw [hread]
    refine readsPart_of_givesUp hs hstage h hgives ?_
    rw [resumption, Cursor.drop_add, Nat.add_assoc]
    rfl

/-- What passes is a part that is read in one step. -/
theorem readsPart_of_passes {α : Type} {P : Production α} {o : Outcome α} {r : Option Retreat}
    {part : α → Part} (hs : s.Idle) (hstage : s.stage = .parts) (hP : s.Passes o (P s.toParser))
    (h : s.turn = some (s.attempt P r fun a => add (part a))) :
    s.ReadsPart ⟨part o.value, o.taken, failures o.calls, []⟩ := by
  obtain ⟨p, hmoves, hattempt⟩ := attempt_of_passes (s := s) (P := P) hP
  exact readsPart_of_moves hs hstage hmoves (h.trans (congrArg some hattempt))

theorem readsPart_openClause {i : Item} {is : List Item} (hs : s.Idle)
    (hi : s.rest.items = i :: is)
    (h : s.turn = some
      (s.attempt clauseHead none fun clause s => { s with stage := .declarations clause })) :
    s.ReadsPart
      { readFeatureClause s.rest with value := .clause (readFeatureClause s.rest).value } := by
  obtain ⟨p, hmoves, hturn⟩ := openClause_eq hi
  rw [hturn] at h
  have hrest : p.rest = s.rest.drop (1 + (readClients s.rest.next).2) := by
    rw [hmoves.rest_eq, rest_move, Cursor.drop_add]
  have hopen : s.Reads _ _ [] [] :=
    .of_turn hs h ⟨hmoves.pending_eq.trans hs.pending_eq, hs.retreat_eq⟩ hrest hmoves.errors_eq rfl
  have hclause := readsPart_declarations rfl hopen.idle
  rw [hopen.rest_eq] at hclause
  obtain ⟨s', hrest', hparts, hdraft⟩ := hclause
  exact ⟨s', hopen.trans hrest', hparts, hdraft⟩

theorem readsPart_openLoose (hs : s.Idle)
    (h : s.turn = some (s.openLoose s.rest.peek.location)) :
    s.ReadsPart
      { readLooseFeatures s.rest with value := .clause (readLooseFeatures s.rest).value } := by
  have hopen := Reads.of_moves hs (Moves.refl s.toParser) h
  obtain ⟨s', hrest, hparts, hdraft⟩ := readsPart_declarations rfl hopen.idle
  have hreads := hopen.trans hrest
  rw [Nat.zero_add] at hreads
  exact ⟨s', hreads, hparts, hdraft⟩

/-- **One turn of the loop over the parts** reads what `readPart` reads. -/
theorem readsPart_readPart {i : Item} {is : List Item} (hs : s.Idle) (hstage : s.stage = .parts)
    (hc : s.rest.items = i :: is) (hend : i.token.isKeyword [.kwEnd] = false) :
    s.ReadsPart (readPart i is s.rest) := by
  have hturn : s.turn = some (s.partTurn i) := by simp [turn, hstage, hc, hend]
  have hpeek : s.rest.peek = i.token := by simp [Cursor.peek, hc]
  have hat : ∀ {ws}, i.token.isKeyword ws = true → s.rest.atKeyword ws = true := by
    intro ws h
    simpa [Cursor.atKeyword, Cursor.test, hc] using h
  unfold partTurn at hturn
  unfold readPart
  by_cases hinherit : i.token.isKeyword [.kwInherit]
  · rw [if_pos hinherit] at hturn ⊢
    exact readsPart_names (fun _ => parents_agrees) hs hstage hc
      (Token.isKeyword_of_disjoint hinherit (by decide)) hturn
  rw [if_neg hinherit] at hturn ⊢
  by_cases hcreate : i.token.isKeyword [.kwCreate]
  · rw [if_pos hcreate] at hturn ⊢
    exact readsPart_names (fun _ => creators_agrees) hs hstage hc
      (Token.isKeyword_of_disjoint hcreate (by decide)) hturn
  rw [if_neg hcreate] at hturn ⊢
  by_cases hconvert : i.token.isKeyword [.kwConvert]
  · rw [if_pos hconvert] at hturn ⊢
    exact readsPart_of_passes hs hstage (conversion_passes (hat hconvert)) hturn
  rw [if_neg hconvert] at hturn ⊢
  by_cases hfeature : i.token.isKeyword [.kwFeature]
  · rw [if_pos hfeature] at hturn ⊢
    exact readsPart_openClause hs hc hturn
  rw [if_neg hfeature] at hturn ⊢
  by_cases hinvariant : i.token.isKeyword [.kwInvariant]
  · rw [if_pos hinvariant] at hturn ⊢
    dsimp only
    rw [readInvariant_errors]
    exact readsPart_of_passes hs hstage (invariant_passes (hat hinvariant)) hturn
  rw [if_neg hinvariant] at hturn ⊢
  by_cases hnote : i.token.isKeyword [.kwNote]
  · rw [if_pos hnote] at hturn ⊢
    exact readsPart_of_passes hs hstage (classNote_passes (hat hnote)) hturn
  rw [if_neg hnote] at hturn ⊢
  by_cases hloose : i.startsDeclaration
  · rw [if_pos hloose] at hturn ⊢
    rw [← hpeek] at hturn
    exact readsPart_openLoose hs hturn
  rw [if_neg hloose] at hturn ⊢
  -- None of the boundary keywords is left, so what is unexpected is passed over.
  have hboundary : i.token.isKeyword boundaryKeywords = false := by
    cases hk : i.token.kind with
    | keyword w => simp_all [Token.isKeyword, boundaryKeywords, clauseKeywords]
    | _ => simp [Token.isKeyword, hk]
  have hgives := unexpected_givesUp s
  rw [hpeek] at hgives
  refine readsPart_of_givesUp hs hstage hturn hgives ?_
  change s.pos + s.rest.resumeLength none = _
  rw [resumeLength_eq_passLength hc hboundary]

/-- **The loop over the parts**, turn by turn, up to the end of the class. -/
theorem reads_parts (hs : s.Idle) (hstage : s.stage = .parts) :
    ∃ s', s.Reads s' (readParts s.rest).taken
        ((readParts s.rest).errors ++ closingErrors (s.rest.drop (readParts s.rest).taken))
        (readParts s.rest).resumed ∧
      s'.stage = .closed ∧ s'.draft = (readParts s.rest).value.foldl Draft.add s.draft := by
  generalize hc : s.rest = c
  fun_induction readParts c generalizing s with
  | case1 c hitems =>
    have hturn : s.turn = some s.close := by simp [turn, hstage, hc, hitems]
    subst hc
    exact ⟨_, .of_turn hs hturn ⟨hs.pending_eq, hs.retreat_eq⟩ rfl rfl rfl, rfl, rfl⟩
  | case2 c i is hitems hend =>
    have hturn : s.turn = some s.close := by simp [turn, hstage, hc, hitems, hend]
    subst hc
    exact ⟨_, .of_turn hs hturn ⟨hs.pending_eq, hs.retreat_eq⟩ rfl rfl rfl, rfl, rfl⟩
  | case3 c i is hitems hend hpos htaken part rest =>
    rename_i ih
    subst hc
    obtain ⟨s₁, hpart, hstage₁, hdraft₁⟩ :=
      readsPart_readPart hs hstage hitems (by simpa using hend)
    obtain ⟨s', hrest, hclosed, hdraft⟩ := ih hpart.idle hstage₁ hpart.rest_eq
    have hreads := hpart.trans hrest
    rw [← List.append_assoc, ← Cursor.drop_add] at hreads
    refine ⟨s', hreads, hclosed, ?_⟩
    rw [hdraft, hdraft₁]
    rfl

/-- The header is read or given up.  In either case the class has the name that `recoverHeader`
gives it. -/
theorem reads_header (hs : s.Idle) (hstage : s.stage = .header) (hdraft : s.draft = {}) :
    let r := recoverHeader s.rest
    ∃ s', s.Reads s' r.taken r.errors r.resumed ∧ s'.stage = .generics ∧
      s'.draft.header.getD { name := ⟨"", s'.rest.peek.location⟩ } = r.value ∧
      s'.draft = { header := s'.draft.header } := by
  have hturn : s.turn = some s.headerTurn := by rw [turn, hstage]
  unfold recoverHeader
  rcases headerTurn_cases s with ⟨header, n, p, hread, hmoves, heq⟩ | ⟨e, hread, hgives⟩
  · rw [hread]
    refine ⟨_, .of_moves hs hmoves (hturn.trans (congrArg some heq)), rfl, rfl, ?_⟩
    rw [hdraft]
  · rw [hread]
    obtain ⟨-, hresumes⟩ := hgives.resumes hs
    refine ⟨_, .of_givesUp hs hturn hgives rfl, ?_, ?_, ?_⟩
    · rw [hresumes.stage_eq, hstage]
      rfl
    · rw [hresumes.draft_eq, hdraft, hresumes.rest_eq, resumption, Cursor.drop_add]
      rfl
    · rw [hresumes.draft_eq, hdraft]

/-- **The steps read the class**: they end behind its last part, with the class, the errors and the
resumptions of `readClass`. -/
theorem reaches_closed (c : Cursor) :
    ∃ s, (start c).Reaches s ∧ s.stage = .closed ∧ s.draft.classDecl? = some (readClass c).value ∧
      s.errors = (readClass c).errors ∧ s.resumed = (readClass c).resumed := by
  have hstart := start_moves c
  obtain ⟨s₁, hheader, hstage₁, hname, hdraft₁⟩ :=
    reads_header (s := start c) ⟨hstart.pending_eq, rfl⟩ rfl rfl
  have hturn : s₁.turn = some s₁.genericsTurn := by rw [turn, hstage₁]
  obtain ⟨p, hmoves, heq⟩ := genericsTurn_eq s₁
  have hgenerics := Reads.of_moves hheader.idle hmoves (hturn.trans (congrArg some heq))
  obtain ⟨s, hparts, hclosed, hdraft⟩ := reads_parts hgenerics.idle rfl
  have hreads := (hheader.trans hgenerics).trans hparts
  -- The places of `readClass`: in front of the header, behind it, and where the parts start.
  let n₀ := if c.atKeyword [.kwNote] then classNoteLength c else 0
  let n₁ := n₀ + (recoverHeader (c.drop n₀)).taken
  let n₂ := n₁ + (readGenerics (c.drop n₁)).2 +
    obsoleteLength (c.drop (n₁ + (readGenerics (c.drop n₁)).2))
  have hrest₀ : (start c).rest = c.drop n₀ := hstart.rest_eq
  have herrors₀ : (start c).errors = [] := hstart.errors_eq
  rw [hrest₀] at hname
  have hrest₁ : s₁.rest = c.drop n₁ := by
    rw [hheader.rest_eq, hrest₀]
    exact (Cursor.drop_add c _ _).symm
  have hrest₂ : p.rest = c.drop n₂ := by
    rw [hmoves.rest_eq, hrest₁, ← Cursor.drop_add, ← Cursor.drop_add, ← Nat.add_assoc]
  rw [hrest₀, hrest₂] at hreads
  rw [hrest₂] at hdraft
  refine ⟨s, hreads.reaches, hclosed, ?_, ?_, ?_⟩
  · rw [hdraft, Draft.foldl_add, hname, hdraft₁, hrest₁]
    rfl
  · rw [hreads.errors_eq, herrors₀, ← Cursor.drop_add]
    change _ = (recoverHeader (c.drop n₀)).errors ++ (readParts (c.drop n₂)).errors ++
      closingErrors (c.drop (n₂ + (readParts (c.drop n₂)).taken))
    simp
  · rw [hreads.resumed_eq, List.append_nil]
    rfl

theorem step_eq_none {c : Cursor} (hs : s.Tidy c) (h : s.stage = .closed) : s.step = none := by
  rw [step, (hs.closed h).1, turn, h]

/-- **The errors of a class balance**: in the last state of its reading, there is one error for each
resumption and for each agent that could not be read, and those of the end of the class. -/
theorem reaches_balance (c : Cursor) :
    ∃ s, (start c).Reaches s ∧ s.step = none ∧ s.draft.classDecl? = some (readClass c).value ∧
      s.errors = (readClass c).errors ∧ s.resumed = (readClass c).resumed ∧ s.AtClose ∧
      (readClass c).errors.length = (readClass c).resumed.length + (failures s.calls).length +
        (closingErrors s.rest).length := by
  obtain ⟨s, hreaches, hclosed, hdraft, herrors, hresumed⟩ := reaches_closed c
  have hs : s.Tidy c := tidy_of_reaches hreaches
  have hbalance := hs.balance
  rw [closing, hclosed, herrors, hresumed] at hbalance
  exact ⟨s, hreaches, step_eq_none hs hclosed, hdraft, herrors, hresumed, (hs.closed hclosed).2,
    hbalance⟩

end Reading

/-! ## 2. The parse of a text -/

theorem length_tokenErrors (ts : List Token) :
    (tokenErrors ts).length = ts.countP (·.fault.isSome) := by
  rw [tokenErrors, List.length_filterMap_eq_countP]
  simp only [Option.isSome_map]

theorem length_closingErrors (c : Cursor) :
    (closingErrors c).length =
      (if c.atEnd then 1 else 0) + (if !c.atEnd && !c.next.atEnd then 1 else 0) := by
  unfold closingErrors
  cases c.atEnd <;> cases c.next.atEnd <;> rfl

/-- **A failed attempt leaves nothing but one error.**  Take the reading of any text step by step.

* While recovery is due, a failure is in the slot, so that the report has something to say, and it
  was noticed at a token from the mark on; otherwise, so at the head of either loop, the slot is
  empty.
* A turn that fails -- at a header, a clause of names, a declaration or a token that starts no part --
  leaves the report, the draft of the class and the clause that is open as they were, and its mark is
  where it started or just behind the keyword there.  The step after it adds exactly the error in the
  slot to the report, and one resumption.
* The steps come to an end, at the `end` of the class or the end of the text, with the tree, errors
  and resumptions of the parse.  There is one diagnostic for each faulty token, for each resumption
  and for each agent that could not be read, one if the `end` of the class is missing, and one if a
  token follows it. -/
theorem failed_attempts_cost_one_error (raw path : String) :
    let x := (Source.ofString raw path).lex
    let c := Cursor.ofLexed x
    let start := Reading.start c
    (∀ s, start.Reaches s →
      (∀ r, s.retreat = some r → ∃ f, s.pending = some f ∧ f.token ∈ (c.drop r.mark).allTokens) ∧
      (s.retreat = none → s.pending = none) ∧
      (∀ failed r, s.retreat = none → s.step = some failed → failed.retreat = some r →
        (r.mark = s.pos ∨ r.mark = s.pos + 1) ∧
        failed.stage = s.stage ∧ failed.draft = s.draft ∧ failed.errors = s.errors ∧
        failed.calls = s.calls ∧ failed.resumed = s.resumed ∧
        ∃ f resumed, failed.pending = some f ∧ failed.step = some resumed ∧
          resumed.stage = s.stage.resumed ∧ resumed.draft = s.draft ∧
          resumed.pending = none ∧ resumed.retreat = none ∧ resumed.errors = s.errors ++ [f.error] ∧
          resumed.resumed = s.resumed ++ [resumed.rest.peek])) ∧
    ∃ last, start.Reaches last ∧ last.step = none ∧
      (last.rest.atEnd = true ∨ last.rest.atKeyword [.kwEnd] = true) ∧
      x.parse.tree.classes = last.draft.classDecl?.toList ∧
      x.parse.errors = tokenErrors x.tokens ++ last.errors ∧
      x.parse.resumed = last.resumed ∧
      x.parse.diagnostics.length =
        x.tokens.countP (·.fault.isSome) + x.parse.recoveries + (failures last.calls).length +
          (if last.rest.atEnd then 1 else 0) +
          (if !last.rest.atEnd && !last.rest.next.atEnd then 1 else 0) := by
  intro x c start
  refine ⟨?_, ?_⟩
  · intro s hreaches
    have hs : s.Tidy (Cursor.ofLexed x) := Reading.tidy_of_reaches hreaches
    refine ⟨hs.noticed, hs.idle, ?_⟩
    intro failed r hr hstep hretreat
    have hidle : s.Idle := ⟨hs.idle hr, hr⟩
    obtain ⟨e, hgives⟩ := hidle.exists_givesUp hstep hretreat
    obtain ⟨hstep', hresumes⟩ := hgives.resumes hidle
    obtain ⟨f, rfl, -, hpending⟩ := hgives.pending_eq
    rw [hidle.pending_eq] at hpending
    exact ⟨hgives.mark_eq, hgives.stage_eq, hgives.draft_eq, hgives.errors_eq, hgives.calls_eq,
      hgives.resumed_eq, f, _, hpending, hstep', hresumes.stage_eq, hresumes.draft_eq,
      hresumes.idle.pending_eq, hresumes.idle.retreat_eq, hresumes.errors_eq, hresumes.resumed_eq⟩
  · obtain ⟨last, hreaches, hstep, hdraft, herrors, hresumed, hclose, hbalance⟩ :=
      Reading.reaches_balance (Cursor.ofLexed x)
    refine ⟨last, hreaches, hstep, hclose, ?_, ?_, hresumed.symm, ?_⟩
    · rw [hdraft]
      rfl
    · rw [herrors]
      rfl
    · have hlength : x.parse.diagnostics.length =
          (tokenErrors x.tokens).length + (readClass (Cursor.ofLexed x)).errors.length := by
        rw [Parsed.diagnostics, List.length_map]
        exact List.length_append
      rw [hlength, hbalance, length_tokenErrors, length_closingErrors]
      change _ = _ + (readClass (Cursor.ofLexed x)).resumed.length + _ + _ + _
      omega

end ContractLint
