/-
# Productions for clauses and the header

The parts of a class in the form of `Production`.  A clause of names is marked behind its keyword,
so its agreement is stated there (`nameClause_agrees`): a failure in it names no token in front of
the mark.  The head of a feature clause is the only production that reads a feature keyword outside
a run (`clauseHead_passes`).
-/
import ContractLint.Proofs.DeclarationProduction

namespace ContractLint

open ContractLint.Parser

namespace Production

/-! ## 1. Clients and parents -/

/-- Clients in braces are passed over up to the one that closes. -/
def clients : Production (List String) := do
  if ← look (·.atSymbol [.openBrace]) then
    enter .clients
    pass readClients
  else return []

/-- The adaptation of a parent is passed over up to its `end`. -/
def adaptation : Production Unit := do
  if ← look (·.atKeyword adaptationKeywords) then
    enter .adaptation
    passUntil (·.token.isKeyword [.kwEnd])
      (fun i => i.startsLine && i.token.isKeyword clauseKeywords) .openAdaptation
    let _ ← expect (·.atKeyword [.kwEnd]) (.expectedKeyword .kwEnd)
    return ()
  else return ()

/-- The parent whose name comes next. -/
def parent : Production Name := do
  let name ← advance
  let _ ← brackets
  adaptation
  return name.name

/-- Reads the parent whose name is at the cursor. -/
def readParent (c : Cursor) : Except SyntaxError (Taken Name) := do
  let n := 1 + c.next.bracketLength
  let k ← adaptationLength (c.drop n)
  return { value := c.peek.name, taken := n + k }

variable {s : Parser}

theorem clients_passes : s.Passes (.ofPair (readClients s.rest)) (clients s) := by
  refine look_ite (fun hopening => ?_) fun hopening => ?_
  · refine enter_passes (items_ne_nil_of_test hopening) fun _ _ hrun => ?_
    rw [readClients, if_pos hopening]
    exact keeps_enclosed hrun (fun _ _ h => h) hopening
  · rw [readClients, if_neg (by simp [hopening])]
    exact ⟨s, rfl, .refl s⟩

theorem adaptation_agrees : s.Agrees .ofNat (adaptationLength s.rest) (adaptation s) := by
  unfold adaptationLength
  refine look_ite (fun hat => ?_) fun hat => ?_
  · rw [if_pos hat]
    let s₁ : Parser := { s with runs := s.runs ++ [⟨.adaptation, s.pos⟩] }
    have h₁ : s.Moves 0 [] s₁ := .of_keeps (List.subset_append_left _ _) (.nil _)
    change s.Agrees _ _ ((passUntil _ _ _ >>= _ : Production Unit) s₁)
    dsimp only
    split
    · rename_i i hi
      obtain ⟨s', hr, hfails⟩ := passUntil_of_some (s := s₁) .openAdaptation hi
      exact ⟨s', bind_of_none hr, .of_moves h₁ hfails⟩
    · rename_i hnone
      rw [bind_of_some (passUntil_of_none (s := s₁) .openAdaptation hnone)]
      have hrun : ⟨.adaptation, (s.text.items.take s.pos).length⟩ ∈ s₁.runs := by
        rw [Parser.length_before (items_ne_nil_of_test hat)]
        exact List.mem_append_right _ (List.mem_singleton_self _)
      have hkeeps := keeps_adaptation hrun hat fun i hi => by
        simpa using List.find?_eq_none.mp hnone i hi
      rw [← take_length_takeWhile] at hkeeps
      have h₂ : s.Moves _ [] (s₁.move _) := .of_keeps (List.subset_append_left _ _) hkeeps
      rw [← h₂.rest_eq]
      exact Agrees.expect_bind (.expectedKeyword .kwEnd) (harmless_keyword (by decide)) h₂
        fun _ s₃ h₃ => .ok h₃ rfl
  · rw [if_neg (by simp [hat])]
    exact .ok (.refl s) rfl

theorem parent_agrees (h : (s.rest.atIdentifier || s.rest.atKeyword [.kwTuple]) = true) :
    s.Agrees .ofTaken (readParent s.rest) (parent s) := by
  have hnamed : Harmless fun c => c.atIdentifier || c.atKeyword [.kwTuple] :=
    harmless_identifier.or (harmless_keyword (by decide))
  unfold parent readParent
  refine Passes.bind_first (advance_passes hnamed h) fun s₁ h₁ => ?_
  refine Passes.bind h₁ brackets_passes fun s₂ h₂ => ?_
  rw [h₁.rest_eq] at h₂
  dsimp only
  rw [show s.rest.drop (1 + s.rest.next.bracketLength) = s₂.rest from h₂.rest_eq.symm]
  exact Agrees.bind h₂ adaptation_agrees fun k s₃ _ h₃ => .ok h₃ rfl

theorem parent_lt {name : Name} {s' : Parser}
    (hname : (s.rest.atIdentifier || s.rest.atKeyword [.kwTuple]) = true)
    (h : parent s = (some name, s')) : s'.rest.size < s.rest.size := by
  obtain ⟨x, -, -, hmoves⟩ := Agrees.exists_ok (h ▸ parent_agrees hname)
  have hnamed : Harmless fun c => c.atIdentifier || c.atKeyword [.kwTuple] :=
    harmless_identifier.or (harmless_keyword (by decide))
  rw [hmoves.rest_eq]
  exact Cursor.size_drop_taken_lt (size_pos_of_harmless hnamed hname) x

/-! ## 2. Clauses of names -/

/-- The parents up to the next boundary keyword. -/
def parents (s : Parser) : Option (List Name) × Parser :=
  if h : s.rest.atEnd then (some [], s)
  else
    have : 0 < s.rest.size := Cursor.size_pos_of_not_atEnd h
    if hname : s.rest.atIdentifier || s.rest.atKeyword [.kwTuple] then
      match h : parent s with
      | (none, s') => (none, s')
      | (some name, s') =>
        have := parent_lt hname h
        Prod.map (Option.map (name :: ·)) id (parents s')
    else if s.rest.atSymbol [.semicolon] then parents (s.move 1)
    else if s.rest.atKeyword boundaryKeywords then (some [], s)
    else fail .unexpectedInInheritance s
termination_by s.rest.size
decreasing_by
  · assumption
  · rw [rest_move, Cursor.size_drop]
    omega

/-- The names of creation procedures. -/
def creators (s : Parser) : Option (List Name) × Parser :=
  if h : s.rest.atIdentifier then
    have : 0 < s.rest.size := Cursor.size_pos_of_test h
    let behind := s.move 1
    if behind.rest.atSymbol [.comma] then
      let further := behind.move 1
      if further.rest.atIdentifier then
        Prod.map (Option.map (s.rest.peek.name :: ·)) id (creators further)
      else fail (fun _ => .missingCreator) further
    else (some [s.rest.peek.name], behind)
  else (some [], s)
termination_by s.rest.size
decreasing_by
  simp only [rest_move, Cursor.size_drop]
  omega

/-- A clause of names behind its keyword. -/
def nameClause (list : Production (List Name)) : Production (List Name) := do
  let _ ← clients
  list

theorem readParents_of_name {c : Cursor} (hend : ¬ c.atEnd = true)
    (hname : (c.atIdentifier || c.atKeyword [.kwTuple]) = true) : readParents c = do
      let parent ← readParent c
      let (parents, m) ← readParents (c.drop parent.taken)
      return (parent.value :: parents, parent.taken + m) := by
  rw [readParents, dif_neg hend, if_pos hname, readParent]
  change (adaptationLength (c.drop (1 + c.next.bracketLength)) >>= _) = _
  cases adaptationLength (c.drop (1 + c.next.bracketLength)) <;> rfl

theorem parents_agrees : s.Agrees .ofPair (readParents s.rest) (parents s) := by
  fun_induction parents s with
  | case1 s hend =>
    rw [readParents, dif_pos hend]
    exact ⟨s, rfl, .refl s⟩
  | case2 s hend hpos hname s' hnone =>
    obtain ⟨e, he, hfails⟩ := Agrees.exists_error (hnone ▸ parent_agrees hname)
    rw [readParents_of_name hend hname, he]
    exact ⟨s', rfl, hfails⟩
  | case3 s hend hpos hname name s' hsome hlt ih =>
    obtain ⟨x, hx, rfl, hmoves⟩ := Agrees.exists_ok (hsome ▸ parent_agrees hname)
    rw [hmoves.rest_eq] at ih
    refine Agrees.map hmoves ih (f := (x.value :: ·))
      (g := fun y => (x.value :: y.1, x.taken + y.2)) ?_ fun y _ => rfl
    rw [readParents_of_name hend hname, hx]
    change (readParents (s.rest.drop x.taken) >>= _) = _
    cases readParents (s.rest.drop x.taken) <;> rfl
  | case4 s hend hpos hname hsemicolon ih =>
    rw [readParents, dif_neg hend, if_neg hname, if_pos hsemicolon]
    exact Agrees.last (.of_harmless (harmless_symbol _) hsemicolon) (rest_move s 1 ▸ ih)
      fun y _ => ⟨_, rfl, rfl⟩
  | case5 s hend hpos hname hsemicolon hboundary =>
    rw [readParents, dif_neg hend, if_neg hname, if_neg hsemicolon, if_pos hboundary]
    exact ⟨s, rfl, .refl s⟩
  | case6 s hend hpos hname hsemicolon hboundary =>
    rw [readParents, dif_neg hend, if_neg hname, if_neg hsemicolon, if_neg hboundary]
    exact Agrees.fail _ (.refl s)

theorem creators_agrees : s.Agrees .ofPair (readCreators s.rest) (creators s) := by
  fun_induction creators s with
  | case1 s h hpos behind hcomma further hfurther ih =>
    have hname : s.Moves 1 [] behind := .of_harmless harmless_identifier h
    have hboth : s.Moves 2 [] further := hname.trans (.of_harmless (harmless_symbol [.comma]) hcomma)
    rw [hboth.rest_eq] at ih hfurther
    rw [show behind.rest = s.rest.next from hname.rest_eq] at hcomma
    refine Agrees.map hboth ih (f := (s.rest.peek.name :: ·))
      (g := fun y => (s.rest.peek.name :: y.1, 2 + y.2)) ?_ fun y _ => rfl
    rw [readCreators, dif_pos h, if_pos hcomma, if_pos hfurther]
    cases readCreators (s.rest.drop 2) <;> rfl
  | case2 s h hpos behind hcomma further hfurther =>
    have hname : s.Moves 1 [] behind := .of_harmless harmless_identifier h
    have hboth : s.Moves 2 [] further := hname.trans (.of_harmless (harmless_symbol [.comma]) hcomma)
    rw [hboth.rest_eq] at hfurther
    rw [show behind.rest = s.rest.next from hname.rest_eq] at hcomma
    rw [readCreators, dif_pos h, if_pos hcomma, if_neg hfurther, ← hboth.rest_eq]
    exact Agrees.fail (fun _ => .missingCreator) hboth
  | case3 s h hpos behind hcomma =>
    have hname : s.Moves 1 [] behind := .of_harmless harmless_identifier h
    rw [show behind.rest = s.rest.next from hname.rest_eq] at hcomma
    rw [readCreators, dif_pos h, if_neg hcomma]
    exact ⟨behind, rfl, hname⟩
  | case4 s h =>
    rw [readCreators, dif_neg h]
    exact ⟨s, rfl, .refl s⟩

/-- **A clause of names agrees behind its keyword.** -/
theorem nameClause_agrees {readList : Cursor → Except SyntaxError (List Name × Nat)}
    {list : Production (List Name)} (hlist : ∀ s : Parser, s.Agrees .ofPair (readList s.rest) (list s))
    (s : Parser) :
    (s.move 1).Agrees (fun names => ⟨names.value, names.taken - 1, []⟩)
      (readNameClause readList s.rest) (nameClause list (s.move 1)) := by
  have hnext : (s.move 1).rest = s.rest.next := rest_move s 1
  unfold nameClause readNameClause
  refine Passes.bind_first clients_passes fun s₁ h₁ => ?_
  rw [hnext] at h₁
  have hrest : s.rest.drop (1 + (readClients s.rest.next).2) = s₁.rest := by
    rw [h₁.rest_eq, hnext, Cursor.drop_add]
    rfl
  dsimp only
  rw [hrest]
  refine Agrees.last h₁ (hlist s₁) fun y _ => ⟨_, rfl, ?_⟩
  dsimp only
  rw [Nat.add_assoc, Nat.add_sub_cancel_left]

/-! ## 3. The header -/

/-- Marks, `class` and the name. -/
def header : Production Header := do
  let marks ← pass fun c =>
    let marks := (c.items.takeWhile fun i => i.token.isKeyword classMarks).map Item.token
    (marks, marks.length)
  let _ ← expect (·.atKeyword [.kwClass]) (.expectedKeyword .kwClass)
  let name ← expect Cursor.atIdentifier (.expectedName .className)
  return ⟨name.name, marks.foldl ClassKind.marked .ordinary, marks.any (·.isKeyword [.kwFrozen])⟩

/-- The formal generics in brackets. -/
def generics : Production (List Name) := do
  if ← look (·.atSymbol [.openBracket]) then
    enter .brackets
    pass readGenerics
  else return []

theorem header_agrees : s.Agrees .ofPair (readHeader s.rest) (header s) := by
  unfold header readHeader
  dsimp only
  set marks := (s.rest.items.takeWhile fun i => i.token.isKeyword classMarks).map Item.token
    with hmarks
  have hplain : ∀ i ∈ s.rest.items.take marks.length, i.opensClause = false := by
    rw [hmarks, List.length_map, take_length_takeWhile]
    intro i hi
    have hmark := List.mem_takeWhile_imp (p := fun i : Item => i.token.isKeyword classMarks) hi
    exact Token.isKeyword_of_disjoint hmark (by decide)
  refine Passes.bind_first (pass_passes hplain) fun s₁ h₁ => ?_
  rw [show s.rest.drop marks.length = s₁.rest from h₁.rest_eq.symm]
  refine Agrees.expect_bind _ (harmless_keyword (by decide)) h₁ fun _ s₂ h₂ => ?_
  rw [h₁.next_eq h₂]
  exact Agrees.expect_bind _ harmless_identifier h₂ fun _ s₃ h₃ => .ok h₃ rfl

theorem generics_passes : s.Passes (.ofPair (readGenerics s.rest)) (generics s) := by
  refine look_ite (fun hopening => ?_) fun hopening => ?_
  · exact enter_passes (items_ne_nil_of_test hopening) fun _ _ hrun => keeps_brackets hrun s.rest
  · have hzero : s.rest.bracketLength = 0 := if_neg (by simp [hopening])
    unfold readGenerics
    rw [hzero]
    exact ⟨s, rfl, .refl s⟩

/-! ## 4. Other clauses -/

/-- A note of the class is passed over up to a line that starts something else. -/
def classNote : Production Unit := do
  enter .classNote
  pass fun c => ((), classNoteLength c)

/-- A conversion clause, which the tree does not keep. -/
def conversion : Production Unit :=
  pass fun c => ((), conversionLength c)

/-- The invariant whose keyword comes next.  Its agents are reported. -/
def invariant : Production Invariant := do
  let block ← block .classInvariant
  report block.calls
  let found := block.constructs
  return ⟨block, Construct.agents found, Construct.quantifiers found⟩

/-- The keyword of a feature clause and its clients. -/
def clauseHead : Production Clause := do
  let keyword ← advance
  let clients ← clients
  let last ← behind
  return {
    kind := .explicit
    location := keyword.location
    category := last.bind Item.category?
    clients := clients
    features := [] }

theorem classNote_passes (h : s.rest.atKeyword [.kwNote] = true) :
    s.Passes (.ofNat (classNoteLength s.rest)) (classNote s) :=
  enter_passes (items_ne_nil_of_test h) fun _ _ hrun => keeps_classNote hrun h

theorem conversion_passes (h : s.rest.atKeyword [.kwConvert] = true) :
    s.Passes (.ofNat (conversionLength s.rest)) (conversion s) := by
  refine pass_passes fun i hi => ?_
  obtain ⟨convert, is, hitems, hconvert⟩ := harmless_keyword (by decide) s.rest h
  rw [hitems, conversionLength, Cursor.next, Cursor.drop, hitems, Nat.add_comm,
    List.take_succ_cons] at hi
  rcases List.mem_cons.mp hi with rfl | hi
  · exact hconvert
  · change i ∈ is.take (is.takeWhile fun i => !i.token.isKeyword boundaryKeywords).length at hi
    rw [take_length_takeWhile] at hi
    have hboundary := List.mem_takeWhile_imp hi
    by_contra hopens
    have hkeyword : i.token.isKeyword boundaryKeywords = true :=
      Token.isKeyword_mono (Bool.not_eq_false _ ▸ hopens) (by decide)
    simp [hkeyword] at hboundary

theorem invariant_passes (h : s.rest.atKeyword [.kwInvariant] = true) :
    s.Passes ⟨(readInvariant s.rest).value.1, (readInvariant s.rest).taken,
      (readInvariant s.rest).value.1.block.calls⟩ (invariant s) := by
  unfold invariant
  refine Passes.bind_first (block_passes h (by decide) (by decide)) fun s₁ h₁ => ?_
  exact Passes.bind h₁ (report_passes _) fun s₂ h₂ => ⟨s₂, rfl, h₂⟩

/-- The feature keyword that comes next is kept. -/
theorem keeps_move_one {i : Item} {is : List Item} {ls : List Location}
    (hrest : s.rest.items = i :: is) (hi : i.opensClause = true) (h : s.Keeps ls) :
    (s.move 1).Keeps (ls ++ [i.token.location]) := by
  have hstep := ContractLint.Keeps.append h (.keep hi (.nil _))
  have htaken : s.text.items.take (s.pos + 1) = s.text.items.take s.pos ++ [i] := by
    have hfirst : s.rest.items.take 1 = [i] := by rw [hrest]; rfl
    rw [List.take_add]
    exact congrArg _ hfirst
  unfold Parser.Keeps
  dsimp only [Parser.move]
  rw [htaken]
  exact hstep

/-- **The head of a feature clause**: its keyword, and what its clients pass over. -/
theorem clauseHead_passes {i : Item} {is : List Item} (hrest : s.rest.items = i :: is) :
    ∃ s', clauseHead s = (some
        { kind := .explicit
          location := s.rest.peek.location
          category := (s.rest.last? (1 + (readClients s.rest.next).2)).bind Item.category?
          clients := (readClients s.rest.next).1
          features := [] }, s') ∧
      (s.move 1).Moves (readClients s.rest.next).2 [] s' := by
  have hnext : (s.move 1).rest = s.rest.next := rest_move s 1
  obtain ⟨s', hclients, hmoves⟩ := clients_passes (s := s.move 1)
  rw [hnext] at hclients hmoves
  refine ⟨s', ?_, hmoves⟩
  unfold clauseHead
  rw [bind_of_some (advance_of_cons hrest), bind_of_some hclients]
  have hlast : s'.text.last? s'.pos = s.rest.last? (1 + (readClients s.rest.next).2) := by
    refine last?_eq hmoves.text_eq ?_ (Nat.add_pos_left Nat.one_pos _) (by simp [hrest])
    rw [hmoves.pos_eq, ← Nat.add_assoc]
    rfl
  rw [← hlast]
  rfl

end Production

end ContractLint
