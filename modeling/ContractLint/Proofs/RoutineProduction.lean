/-
# Productions for types, entities and routines

The lower half of the grammar in the form of `Production`: types, groups of entities, bodies and
routines, each with its lemma of agreement.  Where a production repeats itself, it is a recursion
of its own, and the lemma goes by the induction principle of that recursion.
-/
import ContractLint.Proofs.Production

namespace ContractLint

open ContractLint.Parser

namespace Production

/-! ## 1. Types -/

/-- Brackets are passed over up to the one that closes the first. -/
def brackets : Production (List Token) := do
  if ← look (·.atSymbol [.openBracket]) then
    enter .brackets
    pass fun c => (c.take c.bracketLength, c.bracketLength)
  else return []

def typeMark : Production TypeMark := do
  if ← accept fun c => c.atKeyword [.kwAttached] || c.atSymbol [.bang] then return .attached
  else if ← accept fun c => c.atKeyword [.kwDetachable] || c.atSymbol [.question] then
    return .detachable
  else return .unmarked

/-- The links of an anchor. -/
def qualifiers : Production (List Token) :=
  pass fun c => (c.take (qualifierLength c.items), qualifierLength c.items)

/-- The tokens of a type behind its mark. -/
def typeCore : Production (List Token) := do
  if ← look (·.atKeyword [.kwLike]) then
    let like ← advance
    let anchor ← expect (fun c => c.atIdentifier || c.atKeyword [.kwCurrent]) .expectedAnchor
    return like :: anchor :: (← qualifiers)
  else if ← look fun c => c.atIdentifier || c.atKeyword [.kwTuple] then
    let name ← advance
    return name :: (← brackets)
  else fail .expectedType

def type : Production TypeRef := do
  let start ← look Cursor.peek
  let mark ← typeMark
  let _ ← accept (·.atKeyword [.kwSeparate])
  let _ ← accept (·.atKeyword [.kwFrozen])
  let pieces ← typeCore
  return ⟨renderTokens pieces, mark, start.location⟩

variable {s : Parser}

theorem brackets_passes :
    s.Passes ⟨s.rest.take s.rest.bracketLength, s.rest.bracketLength, []⟩ (brackets s) := by
  refine look_ite (fun hopening => ?_) fun hopening => ?_
  · exact enter_passes (items_ne_nil_of_test hopening) fun _ _ hrun => keeps_brackets hrun s.rest
  · have hzero : s.rest.bracketLength = 0 := if_neg (by simp [hopening])
    rw [hzero]
    exact ⟨s, rfl, .refl s⟩

theorem typeMark_passes : s.Passes (.ofPair (readTypeMark s.rest)) (typeMark s) := by
  unfold typeMark readTypeMark
  have hattached : Harmless fun c => c.atKeyword [.kwAttached] || c.atSymbol [.bang] :=
    (harmless_keyword (by decide)).or (harmless_symbol _)
  have hdetachable : Harmless fun c => c.atKeyword [.kwDetachable] || c.atSymbol [.question] :=
    (harmless_keyword (by decide)).or (harmless_symbol _)
  refine accept_ite hattached (.refl s) (fun h s' hs' => ?_) fun h => ?_
  · rw [if_pos h]
    exact ⟨s', rfl, hs'⟩
  rw [if_neg (by simp [h])]
  refine accept_ite hdetachable (.refl s) (fun h s' hs' => ?_) fun h => ?_
  · rw [if_pos h]
    exact ⟨s', rfl, hs'⟩
  · rw [if_neg (by simp [h])]
    exact ⟨s, rfl, .refl s⟩

theorem plain_of_mem_qualifiers : ∀ is : List Item, ∀ i ∈ is.take (qualifierLength is),
    i.opensClause = false
  | [], _, hi => by cases hi
  | [_], _, hi => by cases hi
  | d :: j :: rest, i, hi => by
    have ih := plain_of_mem_qualifiers rest i
    rw [qualifierLength] at hi
    split at hi
    · rename_i h
      obtain ⟨hdot, hname⟩ := (Bool.and_eq_true _ _).mp h
      simp only [List.take_succ_cons, List.mem_cons] at hi
      rcases hi with rfl | rfl | hi
      · exact Token.isKeyword_of_isSymbol hdot _
      · exact Token.isKeyword_of_kind hname (fun _ => by simp) _
      · exact ih hi
    · cases hi

theorem qualifiers_passes :
    s.Passes ⟨s.rest.take (qualifierLength s.rest.items), qualifierLength s.rest.items, []⟩
      (qualifiers s) :=
  ⟨_, rfl, .of_plain (plain_of_mem_qualifiers s.rest.items)⟩

theorem typeCore_agrees :
    s.Agrees (fun n => ⟨s.rest.take n, n, []⟩) (typeLength s.rest) (typeCore s) := by
  have hanchor : Harmless fun c => c.atIdentifier || c.atKeyword [.kwCurrent] :=
    harmless_identifier.or (harmless_keyword (by decide))
  have hnamed : Harmless fun c => c.atIdentifier || c.atKeyword [.kwTuple] :=
    harmless_identifier.or (harmless_keyword (by decide))
  unfold typeCore typeLength
  rw [look_bind]
  split
  · rename_i hlike
    refine Passes.bind_first (advance_passes (harmless_keyword (by decide)) hlike) fun s₁ h₁ => ?_
    rw [show s.rest.next = s₁.rest from h₁.rest_eq.symm]
    refine Agrees.expect_bind .expectedAnchor hanchor h₁ fun hnext s₂ h₂ => ?_
    rw [← h₂.rest_eq]
    refine Passes.bind h₂ qualifiers_passes fun s₃ h₃ => .ok h₃ ?_
    have hnext₁ : s.rest.next = s₁.rest := h₁.rest_eq.symm
    have hnext₂ : s₁.rest.next = s₂.rest := h₁.next_eq h₂
    have htaken : s.rest.take (2 + qualifierLength s₂.rest.items) = s.rest.peek :: s₁.rest.peek ::
        s₂.rest.take (qualifierLength s₂.rest.items) := by
      rw [show 2 + qualifierLength s₂.rest.items = 1 + (1 + qualifierLength s₂.rest.items) by omega,
        Cursor.take_succ (Cursor.size_pos_of_test hlike), hnext₁,
        Cursor.take_succ (size_pos_of_harmless hanchor hnext), hnext₂]
    rw [htaken]
  · rw [look_bind]
    split
    · rename_i hname
      refine Passes.bind_first (advance_passes hnamed hname) fun s₁ h₁ => ?_
      rw [show s.rest.next = s₁.rest from h₁.rest_eq.symm]
      refine Passes.bind h₁ brackets_passes fun s₂ h₂ => .ok h₂ ?_
      rw [Cursor.take_succ (size_pos_of_harmless hnamed hname), h₁.rest_eq]
      rfl
    · exact Agrees.fail _ (.refl s)

theorem type_agrees : s.Agrees .ofPair (readType s.rest) (type s) := by
  unfold type readType
  have hmark := @typeMark_passes s
  generalize readTypeMark s.rest = r at hmark ⊢
  obtain ⟨mark, marks⟩ := r
  rw [look_bind]
  refine Passes.bind_first hmark fun s₁ h₁ => ?_
  dsimp only
  rw [← h₁.rest_eq]
  refine Passes.bind h₁ (acceptKeyword_passes (by decide)) fun s₂ h₂ => ?_
  rw [← h₂.rest_eq]
  refine Passes.bind h₂ (acceptKeyword_passes (by decide)) fun s₃ h₃ => ?_
  rw [← h₃.rest_eq]
  exact Agrees.bind h₃ typeCore_agrees fun n s₄ _ h₄ => .ok h₄ rfl

/-! ## 2. Entities -/

/-- The names of a group of entities. -/
def nameGroup (role : NameRole) (s : Parser) : Option (List Name) × Parser :=
  if h : s.rest.atIdentifier then
    have : 0 < s.rest.size := Cursor.size_pos_of_test h
    let behind := s.move 1
    if behind.rest.atSymbol [.comma] then
      Prod.map (Option.map (s.rest.peek.name :: ·)) id (nameGroup role (behind.move 1))
    else (some [s.rest.peek.name], behind)
  else fail (.expectedName role) s
termination_by s.rest.size
decreasing_by
  simp only [rest_move, Cursor.size_drop]
  omega

def entities (role : NameRole) : Production (List Entity) := do
  let names ← nameGroup role
  let _ ← expect (·.atSymbol [.colon]) (.expectedSymbol .colon)
  let type ← type
  let _ ← accept (·.atSymbol [.semicolon])
  return names.map (⟨·, type⟩)

theorem length_readNames_pos {role : NameRole} {c : Cursor} {names : List Name}
    (h : readNames role c = .ok names) : 0 < names.length := by
  rw [readNames] at h
  split at h
  · split at h
    · split at h <;> cases h
      exact Nat.succ_pos _
    · cases h
      exact Nat.one_pos
  · cases h

theorem nameGroup_agrees (role : NameRole) :
    s.Agrees (fun names => ⟨names, 2 * names.length - 1, []⟩) (readNames role s.rest)
      (nameGroup role s) := by
  fun_induction nameGroup role s with
  | case1 s h hpos behind hcomma ih =>
    have hname : s.Moves 1 [] behind := .of_harmless harmless_identifier h
    have hboth : s.Moves 2 [] (behind.move 1) :=
      hname.trans (.of_harmless (harmless_symbol [.comma]) hcomma)
    rw [hboth.rest_eq] at ih
    rw [show behind.rest = s.rest.next from hname.rest_eq] at hcomma
    refine Agrees.map hboth ih (g := (s.rest.peek.name :: ·)) ?_ fun names hnames => ?_
    · rw [readNames, dif_pos h, if_pos hcomma]
      cases readNames role (s.rest.drop 2) <;> rfl
    · have hlength := length_readNames_pos hnames
      have htaken : 2 * (s.rest.peek.name :: names).length - 1 = 2 + (2 * names.length - 1) := by
        rw [List.length_cons]
        omega
      rw [htaken]
  | case2 s h hpos behind hcomma =>
    have hname : s.Moves 1 [] behind := .of_harmless harmless_identifier h
    rw [show behind.rest = s.rest.next from hname.rest_eq] at hcomma
    rw [readNames, dif_pos h, if_neg hcomma]
    exact ⟨behind, rfl, hname⟩
  | case3 s h =>
    rw [readNames, dif_neg h]
    exact Agrees.fail _ (.refl s)

theorem entities_agrees (role : NameRole) :
    s.Agrees .ofTaken (readEntities role s.rest) (entities role s) := by
  unfold entities readEntities
  refine Agrees.bind_first (nameGroup_agrees role) fun names s₁ hnames h₁ => ?_
  dsimp only
  rw [← h₁.rest_eq]
  refine Agrees.expect_bind (.expectedSymbol .colon) (harmless_symbol _) h₁ fun hcolon s₂ h₂ => ?_
  rw [h₁.next_eq h₂]
  refine Agrees.bind h₂ type_agrees fun ⟨type, k⟩ s₃ _ h₃ => ?_
  exact Passes.bind h₃ (acceptSymbol_passes _) fun s₄ h₄ => .ok h₄ (by rw [h₃.rest_eq])

theorem entities_lt {role : NameRole} {group : List Entity} {s' : Parser}
    (h : entities role s = (some group, s')) : s'.rest.size < s.rest.size := by
  obtain ⟨x, hx, -, hmoves⟩ := Agrees.exists_ok (h ▸ entities_agrees role)
  have hsize : 0 < s.rest.size := by
    rw [readEntities] at hx
    obtain ⟨names, hnames, -⟩ := exists_of_bind_eq_ok hx
    rw [readNames] at hnames
    split at hnames
    · exact Cursor.size_pos_of_test ‹_›
    · cases hnames
  rw [hmoves.rest_eq]
  exact Cursor.size_drop_taken_lt hsize x

/-- The groups of formal arguments and the parenthesis behind them. -/
def argumentGroups (s : Parser) : Option (List Entity) × Parser :=
  if s.rest.atSymbol [.closeParen] then (some [], s.move 1)
  else match h : entities .argumentName s with
    | (none, s') => (none, s')
    | (some group, s') =>
      have := entities_lt h
      Prod.map (Option.map (group ++ ·)) id (argumentGroups s')
termination_by s.rest.size

def arguments : Production (List Entity) := do
  if ← accept (·.atSymbol [.openParen]) then argumentGroups
  else return []

def localGroups (s : Parser) : Option (List Entity) × Parser :=
  if s.rest.atIdentifier then
    match h : entities .localName s with
    | (none, s') => (none, s')
    | (some group, s') =>
      have := entities_lt h
      Prod.map (Option.map (group ++ ·)) id (localGroups s')
  else (some [], s)
termination_by s.rest.size

def locals : Production (List Entity) := do
  if ← accept (·.atKeyword [.kwLocal]) then localGroups
  else return []

/-- A group that does not start with a name cannot be read, so the test for a name is none that the
productions make. -/
theorem readArgumentGroups_eq {c : Cursor} (h : ¬ c.atSymbol [.closeParen] = true) :
    readArgumentGroups c = do
      let group ← readEntities .argumentName c
      let (entities, n) ← readArgumentGroups (c.drop group.taken)
      return (group.value ++ entities, group.taken + n) := by
  rw [readArgumentGroups, if_neg h]
  split
  · rfl
  · rename_i hname
    rw [readEntities, readNames, dif_neg hname]
    rfl

theorem argumentGroups_agrees :
    s.Agrees (fun x => ⟨x.1, x.2 + 1, []⟩) (readArgumentGroups s.rest) (argumentGroups s) := by
  fun_induction argumentGroups s with
  | case1 s h =>
    rw [readArgumentGroups, if_pos h]
    exact ⟨_, rfl, .of_harmless (harmless_symbol _) h⟩
  | case2 s hclose s' hnone =>
    obtain ⟨e, he, hfails⟩ := Agrees.exists_error (hnone ▸ entities_agrees .argumentName)
    rw [readArgumentGroups_eq hclose, he]
    exact ⟨s', rfl, hfails⟩
  | case3 s hclose group s' hsome hlt ih =>
    obtain ⟨x, hx, rfl, hmoves⟩ := Agrees.exists_ok (hsome ▸ entities_agrees .argumentName)
    rw [hmoves.rest_eq] at ih
    refine Agrees.map hmoves ih (g := fun y => (x.value ++ y.1, x.taken + y.2)) ?_ fun y _ => ?_
    · rw [readArgumentGroups_eq hclose, hx]
      change (readArgumentGroups (s.rest.drop x.taken) >>= _) = _
      cases readArgumentGroups (s.rest.drop x.taken) <;> rfl
    · rw [Nat.add_assoc]

theorem arguments_agrees : s.Agrees .ofPair (readArguments s.rest) (arguments s) := by
  unfold arguments readArguments
  refine accept_ite (harmless_symbol _) (.refl s) (fun h s₁ h₁ => ?_) fun h => ?_
  · rw [if_pos h, show s.rest.next = s₁.rest from h₁.rest_eq.symm]
    refine Agrees.last h₁ argumentGroups_agrees fun y _ => ⟨_, rfl, ?_⟩
    rw [Nat.add_assoc]
  · rw [if_neg (by simp [h])]
    exact .ok (.refl s) rfl

theorem localGroups_agrees : s.Agrees .ofPair (readLocalGroups s.rest) (localGroups s) := by
  fun_induction localGroups s with
  | case1 s hname s' hnone =>
    obtain ⟨e, he, hfails⟩ := Agrees.exists_error (hnone ▸ entities_agrees .localName)
    rw [readLocalGroups, dif_pos hname, he]
    exact ⟨s', rfl, hfails⟩
  | case2 s hname group s' hsome hlt ih =>
    obtain ⟨x, hx, rfl, hmoves⟩ := Agrees.exists_ok (hsome ▸ entities_agrees .localName)
    rw [hmoves.rest_eq] at ih
    refine Agrees.map hmoves ih (g := fun y => (x.value ++ y.1, x.taken + y.2)) ?_ fun y _ => rfl
    rw [readLocalGroups, dif_pos hname, hx]
    change (readLocalGroups (s.rest.drop x.taken) >>= _) = _
    cases readLocalGroups (s.rest.drop x.taken) <;> rfl
  | case3 s hname =>
    rw [readLocalGroups, dif_neg hname]
    exact ⟨s, rfl, .refl s⟩

theorem locals_agrees : s.Agrees .ofPair (readLocals s.rest) (locals s) := by
  unfold locals readLocals
  refine accept_ite (harmless_keyword (by decide)) (.refl s) (fun h s₁ h₁ => ?_) fun h => ?_
  · rw [if_pos h, show s.rest.next = s₁.rest from h₁.rest_eq.symm]
    exact Agrees.last h₁ localGroups_agrees fun y _ => ⟨_, rfl, rfl⟩
  · rw [if_neg (by simp [h])]
    exact .ok (.refl s) rfl

/-! ## 3. Bodies and routines -/

/-- The tokens of a body. -/
def bodySpan : Production (List Token) :=
  pass fun c => (c.take c.bodyLength, c.bodyLength)

/-- The keys of a once body in parentheses are passed over up to the one that closes. -/
def onceKeys : Production (List (List CodePoint)) := do
  if ← look (·.atSymbol [.openParen]) then
    enter .onceKeys
    pass readOnceKeys
  else return []

/-- What stands behind the keyword of an external body. -/
def externalBody : Production Unit := do
  let _ ← expect Cursor.atString fun _ => .externalWithoutLanguage
  if ← accept (·.atKeyword [.kwAlias]) then
    let _ ← expect Cursor.atString fun _ => .aliasWithoutString
    return ()
  else return ()

def body : Production Body := do
  if ← accept (·.atKeyword [.kwDo]) then return .instructions (← bodySpan)
  else if ← accept (·.atKeyword [.kwOnce]) then
    let keys ← onceKeys
    return .once keys (← bodySpan)
  else if ← accept (·.atKeyword [.kwAttribute]) then return .attributive (← bodySpan)
  else if ← accept (·.atKeyword [.kwDeferred]) then return .deferred
  else if ← accept (·.atKeyword [.kwExternal]) then
    externalBody
    return .external
  else fail .expectedBody

/-- The block whose keyword comes next. -/
def block (g : BlockGrammar) : Production AssertionBlock := do
  let keyword ← advance
  let extended ← accept (·.atKeyword g.extension)
  let span ← pass fun c =>
    let n := spanLength g.stops [.kwFeature] c.tokens
    (c.take n, n)
  return { kind := g.kind, location := keyword.location, assertions := assertions span, extended }

/-- The block that a keyword opens, if it is there. -/
def block? (g : BlockGrammar) (keyword : Keyword) : Production (Option AssertionBlock) := do
  if ← look (·.atKeyword [keyword]) then return some (← block g)
  else return none

def rescue : Production Unit := do
  if ← accept (·.atKeyword [.kwRescue]) then
    let _ ← bodySpan
    return ()
  else return ()

/-- The agents of a routine are looked for when its `end` was read. -/
def routine : Production Routine := do
  let precondition ← block? .precondition .kwRequire
  let locals ← locals
  let body ← body
  let postcondition ← block? .postcondition .kwEnsure
  rescue
  let last ← expect (·.atKeyword [.kwEnd]) (.expectedKeyword .kwEnd)
  let routine : Routine := ⟨precondition, locals, body, postcondition, last.location⟩
  report routine.calls
  return routine

/-- A hard stop stands in no span. -/
theorem not_hard_of_mem_span (stops hard : List Keyword) : ∀ (n : Nesting) (ts : List Token),
    ∀ t ∈ ts.take (spanLengthFrom stops hard n ts), t.isKeyword hard = false
  | _, [], t, ht => by simp at ht
  | n, u :: ts, t, ht => by
    have ih := not_hard_of_mem_span stops hard (n.feed u ts.head?) ts t
    rw [spanLengthFrom] at ht
    split at ht
    · cases ht
    · rename_i w hkind
      split at ht
      · cases ht
      · rename_i hstop
        rcases List.mem_cons.mp ht with rfl | ht
        · have hhard : hard.contains w = false := by
            simp only [Nesting.stopsAt, Bool.or_eq_true, not_or] at hstop
            simpa using hstop.1
          rw [Token.isKeyword, hkind]
          exact hhard
        · exact ih ht
    · rename_i hkeyword
      rcases List.mem_cons.mp ht with rfl | ht
      · rw [Token.isKeyword]
        split
        · rename_i w hkind
          exact absurd hkind (hkeyword w)
        · rfl
      · exact ih ht

/-- A span ends at a feature keyword, at any depth. -/
theorem plain_of_mem_span (c : Cursor) (stops : List Keyword) :
    ∀ i ∈ c.items.take (spanLength stops [.kwFeature] c.tokens), i.opensClause = false := by
  intro i hi
  refine not_hard_of_mem_span stops _ {} c.tokens i.token ?_
  have hmem := List.mem_map_of_mem (f := Item.token) hi
  rwa [List.map_take] at hmem

theorem bodySpan_passes :
    s.Passes ⟨s.rest.take s.rest.bodyLength, s.rest.bodyLength, []⟩ (bodySpan s) :=
  pass_passes (plain_of_mem_span s.rest bodyStops)

theorem onceKeys_passes : s.Passes (.ofPair (readOnceKeys s.rest)) (onceKeys s) := by
  refine look_ite (fun hopening => ?_) fun hopening => ?_
  · refine enter_passes (items_ne_nil_of_test hopening) fun _ _ hrun => ?_
    rw [readOnceKeys, if_pos hopening]
    exact keeps_enclosed hrun (fun _ _ h => h) hopening
  · rw [readOnceKeys, if_neg (by simp [hopening])]
    exact ⟨s, rfl, .refl s⟩

theorem externalBody_agrees :
    s.Agrees .ofNat (externalLength s.rest) (externalBody s) := by
  unfold externalBody externalLength
  refine Agrees.expect_bind (fun _ => .externalWithoutLanguage) harmless_string (.refl s)
    fun _ s₁ h₁ => ?_
  rw [show s.rest.next = s₁.rest from h₁.rest_eq.symm]
  refine accept_ite (harmless_keyword (by decide)) h₁ (fun halias s₂ h₂ => ?_) fun halias => ?_
  · rw [if_pos halias, ← h₂.rest_eq]
    exact Agrees.expect_bind (fun _ => .aliasWithoutString) harmless_string h₂
      fun _ s₃ h₃ => .ok h₃ rfl
  · rw [if_neg (by simp [halias])]
    exact .ok h₁ rfl

theorem body_agrees : s.Agrees .ofTaken (readBody s.rest) (body s) := by
  unfold body readBody
  refine accept_ite (harmless_keyword (by decide)) (.refl s) (fun h s₁ h₁ => ?_) fun h => ?_
  · rw [if_pos h]
    exact Passes.bind h₁ bodySpan_passes fun s₂ h₂ => .ok h₂ (by rw [h₁.rest_eq]; rfl)
  rw [if_neg (by simp [h])]
  refine accept_ite (harmless_keyword (by decide)) (.refl s) (fun h s₁ h₁ => ?_) fun h => ?_
  · rw [if_pos h]
    refine Passes.bind h₁ onceKeys_passes fun s₂ h₂ => ?_
    refine Passes.bind h₂ bodySpan_passes fun s₃ h₃ => .ok h₃ ?_
    rw [h₂.rest_eq, h₁.rest_eq]
    rfl
  rw [if_neg (by simp [h])]
  refine accept_ite (harmless_keyword (by decide)) (.refl s) (fun h s₁ h₁ => ?_) fun h => ?_
  · rw [if_pos h]
    exact Passes.bind h₁ bodySpan_passes fun s₂ h₂ => .ok h₂ (by rw [h₁.rest_eq]; rfl)
  rw [if_neg (by simp [h])]
  refine accept_ite (harmless_keyword (by decide)) (.refl s) (fun h s₁ h₁ => ?_) fun h => ?_
  · rw [if_pos h]
    exact .ok h₁ rfl
  rw [if_neg (by simp [h])]
  refine accept_ite (harmless_keyword (by decide)) (.refl s) (fun h s₁ h₁ => ?_) fun h => ?_
  · rw [if_pos h]
    have hexternal := externalBody_agrees (s := s₁)
    rw [h₁.rest_eq] at hexternal
    change s₁.Agrees .ofNat (externalLength s.rest.next) _ at hexternal
    cases hread : externalLength s.rest.next with
    | ok n =>
      rw [hread] at hexternal
      exact Passes.bind h₁ hexternal fun s₂ h₂ => .ok h₂ rfl
    | error e =>
      rw [hread] at hexternal
      obtain ⟨s₂, hr, hfails⟩ := hexternal
      exact ⟨s₂, bind_of_none hr, .of_moves h₁ hfails⟩
  rw [if_neg (by simp [h])]
  exact Agrees.fail _ (.refl s)

theorem block_passes {g : BlockGrammar} {w : Keyword} (hkeyword : s.rest.atKeyword [w] = true)
    (hw : w ≠ .kwFeature) (hextension : ∀ w ∈ g.extension, w ∉ [Keyword.kwFeature]) :
    s.Passes (.ofTaken (readBlock g s.rest)) (block g s) := by
  unfold block
  have hharmless : Harmless fun c => c.atKeyword [w] := harmless_keyword (by simpa using hw)
  refine Passes.bind_first (advance_passes hharmless hkeyword) fun s₁ h₁ => ?_
  refine Passes.bind h₁ (acceptKeyword_passes hextension) fun s₂ h₂ => ?_
  refine Passes.bind h₂ (pass_passes (plain_of_mem_span s₂.rest g.stops)) fun s₃ h₃ => ?_
  have hextended : s₁.rest.atKeyword g.extension = (s₁.rest.optKeyword g.extension == 1) := by
    unfold Cursor.optKeyword
    cases s₁.rest.atKeyword g.extension <;> rfl
  have hinner : s₂.rest = s.rest.drop (1 + s.rest.next.optKeyword g.extension) := by
    rw [h₂.rest_eq, h₁.rest_eq]
    rfl
  rw [hinner, h₁.rest_eq] at h₃
  refine ⟨s₃, ?_, h₃⟩
  rw [hextended, hinner, h₁.rest_eq]
  rfl

theorem block?_passes (g : BlockGrammar) {w : Keyword} (hw : w ≠ .kwFeature)
    (hextension : ∀ w ∈ g.extension, w ∉ [Keyword.kwFeature]) :
    s.Passes (.ofPair (readBlock? g w s.rest)) (block? g w s) := by
  unfold readBlock?
  refine look_ite (fun hkeyword => ?_) fun hkeyword => ?_
  · rw [if_pos hkeyword]
    exact Passes.bind_first (block_passes hkeyword hw hextension) fun s₁ h₁ => ⟨s₁, rfl, h₁⟩
  · rw [if_neg (by simp [hkeyword])]
    exact ⟨s, rfl, .refl s⟩

theorem rescue_passes : s.Passes (.ofNat (rescueLength s.rest)) (rescue s) := by
  unfold rescue rescueLength
  refine accept_ite (harmless_keyword (by decide)) (.refl s) (fun h s₁ h₁ => ?_) fun h => ?_
  · rw [if_pos h, show s.rest.next = s₁.rest from h₁.rest_eq.symm]
    exact Passes.bind h₁ bodySpan_passes fun s₂ h₂ => ⟨s₂, rfl, h₂⟩
  · rw [if_neg (by simp [h])]
    exact ⟨s, rfl, .refl s⟩

theorem routine_agrees :
    s.Agrees (fun r => ⟨r.value, r.taken, r.value.calls⟩) (readRoutine s.rest) (routine s) := by
  unfold routine readRoutine
  have hrequire := @block?_passes s .precondition .kwRequire (by decide) (by decide)
  generalize readBlock? .precondition .kwRequire s.rest = r₁ at hrequire ⊢
  obtain ⟨precondition, n₁⟩ := r₁
  refine Passes.bind_first hrequire fun s₁ h₁ => ?_
  dsimp only
  rw [← h₁.rest_eq]
  refine Agrees.bind h₁ locals_agrees fun ⟨locals, n₂⟩ s₂ _ h₂ => ?_
  dsimp only
  rw [← h₂.rest_eq]
  refine Agrees.bind h₂ body_agrees fun body s₃ _ h₃ => ?_
  have hensure := @block?_passes s₃ .postcondition .kwEnsure (by decide) (by decide)
  dsimp only
  rw [← h₃.rest_eq]
  generalize readBlock? .postcondition .kwEnsure s₃.rest = r₂ at hensure ⊢
  obtain ⟨postcondition, n₄⟩ := r₂
  refine Passes.bind h₃ hensure fun s₄ h₄ => ?_
  refine Passes.bind h₄ rescue_passes fun s₅ h₅ => ?_
  rw [h₄.rest_eq] at h₅
  dsimp only
  rw [← h₅.rest_eq]
  refine Agrees.expect_bind (.expectedKeyword .kwEnd) (harmless_keyword (by decide)) h₅
    fun _ s₆ h₆ => ?_
  exact Passes.bind h₆ (report_passes _) fun s₇ h₇ => .ok h₇ rfl

end Production

end ContractLint
