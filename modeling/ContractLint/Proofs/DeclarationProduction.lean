/-
# Productions for declarations

The declarations of features in the form of `Production`.  The agents of a declaration are reported
as its routine ends, so a declaration that is given up has reported nothing: its agreement is with a
reader whose errors are the failing calls of the declaration it returns.
-/
import ContractLint.Proofs.RoutineProduction

namespace ContractLint

open ContractLint.Parser

namespace Production

/-! ## 1. Names -/

/-- The operator alias of a name. -/
def operatorAlias : Production Unit := do
  if ← accept (·.atKeyword [.kwAlias]) then
    let _ ← expect Cursor.atString fun _ => .aliasWithoutOperator
    let _ ← accept (·.atKeyword [.kwConvert])
    return ()
  else return ()

/-- A name, and whether it is frozen. -/
def declaredName : Production (Name × Bool) := do
  let frozen ← accept (·.atKeyword [.kwFrozen])
  let name ← expect Cursor.atIdentifier (.expectedName .featureName)
  operatorAlias
  return (name.name, frozen)

variable {s : Parser}

theorem operatorAlias_agrees : s.Agrees .ofNat (aliasLength s.rest) (operatorAlias s) := by
  unfold operatorAlias aliasLength
  refine accept_ite (harmless_keyword (by decide)) (.refl s) (fun h s₁ h₁ => ?_) fun h => ?_
  · rw [if_pos h, show s.rest.next = s₁.rest from h₁.rest_eq.symm]
    refine Agrees.expect_bind (fun _ => .aliasWithoutOperator) harmless_string h₁ fun _ s₂ h₂ => ?_
    refine Passes.bind h₂ (acceptKeyword_passes (by decide)) fun s₃ h₃ => .ok h₃ ?_
    rw [h₂.rest_eq]
  · rw [if_neg (by simp [h])]
    exact .ok (.refl s) rfl

/-- A name takes a token, behind `frozen` and in front of the `k` tokens of an alias. -/
theorem declaredName_pos (frozen k : Nat) : 0 < frozen + 1 + k := by
  omega

/-- Reads one of the names of a declaration. -/
def readDeclaredName (c : Cursor) : Except SyntaxError (Taken (Name × Bool)) :=
  let frozen := c.optKeyword [.kwFrozen]
  let name := c.drop frozen
  if name.atIdentifier then do
    let k ← aliasLength name.next
    return {
      value := (name.peek.name, frozen == 1)
      taken := frozen + 1 + k
      taken_pos := declaredName_pos frozen k }
  else name.fail (.expectedName .featureName name.peek)

theorem declaredName_agrees :
    s.Agrees .ofTaken (readDeclaredName s.rest) (declaredName s) := by
  unfold declaredName readDeclaredName
  have hfrozen : s.rest.atKeyword [.kwFrozen] = (s.rest.optKeyword [.kwFrozen] == 1) := by
    unfold Cursor.optKeyword
    cases s.rest.atKeyword [.kwFrozen] <;> rfl
  refine Passes.bind_first (acceptKeyword_passes (by decide)) fun s₁ h₁ => ?_
  rw [hfrozen]
  dsimp only
  rw [← h₁.rest_eq]
  refine Agrees.expect_bind _ harmless_identifier h₁ fun _ s₂ h₂ => ?_
  rw [h₁.next_eq h₂]
  exact Agrees.bind h₂ operatorAlias_agrees fun k s₃ _ h₃ => .ok h₃ rfl

/-- Names are read one by one. -/
theorem readDeclared_eq (c : Cursor) : readDeclared c = do
    let name ← readDeclaredName c
    if (c.drop name.taken).atSymbol [.comma] then do
      let names ← readDeclared (c.drop (name.taken + 1))
      return { value := name.value :: names.value, taken := name.taken + 1 + names.taken }
    else return { value := [name.value], taken := name.taken, taken_pos := name.taken_pos } := by
  rw [readDeclared, readDeclaredName]
  dsimp only
  split
  · cases aliasLength (c.drop (c.optKeyword [.kwFrozen])).next with
    | error e => rfl
    | ok k =>
      change (if _ then _ else _) = (if _ then _ else _)
      split
      · cases readDeclared (c.drop (c.optKeyword [.kwFrozen] + 1 + k + 1)) <;> rfl
      · rfl
  · rfl

theorem size_pos_of_declaredName {c : Cursor} {x : Taken (Name × Bool)}
    (h : readDeclaredName c = .ok x) : 0 < c.size := by
  unfold readDeclaredName at h
  dsimp only at h
  split at h
  · rename_i hname
    have hpos := Cursor.size_pos_of_test hname
    rw [Cursor.size_drop] at hpos
    omega
  · cases h

theorem declaredName_lt {name : Name × Bool} {s' : Parser}
    (h : declaredName s = (some name, s')) : s'.rest.size < s.rest.size := by
  obtain ⟨x, hx, -, hmoves⟩ := Agrees.exists_ok (h ▸ declaredName_agrees)
  rw [hmoves.rest_eq]
  exact Cursor.size_drop_taken_lt (size_pos_of_declaredName hx) x

/-- The names of a declaration. -/
def declaredNames (s : Parser) : Option (List (Name × Bool)) × Parser :=
  match h : declaredName s with
  | (none, s') => (none, s')
  | (some name, s') =>
    have := declaredName_lt h
    if s'.rest.atSymbol [.comma] then
      Prod.map (Option.map (name :: ·)) id (declaredNames (s'.move 1))
    else (some [name], s')
termination_by s.rest.size
decreasing_by
  rw [rest_move, Cursor.size_drop]
  omega

theorem declaredNames_agrees :
    s.Agrees .ofTaken (readDeclared s.rest) (declaredNames s) := by
  fun_induction declaredNames s with
  | case1 s s' hnone =>
    obtain ⟨e, he, hfails⟩ := Agrees.exists_error (hnone ▸ declaredName_agrees)
    rw [readDeclared_eq, he]
    exact ⟨s', rfl, hfails⟩
  | case2 s name s' hsome hlt hcomma ih =>
    obtain ⟨x, hx, rfl, hname⟩ := Agrees.exists_ok (hsome ▸ declaredName_agrees)
    have hboth : s.Moves (x.taken + 1) [] (s'.move 1) :=
      hname.trans (.of_harmless (harmless_symbol [.comma]) hcomma)
    rw [hboth.rest_eq] at ih
    rw [hname.rest_eq] at hcomma
    refine Agrees.map hboth ih (f := (x.value :: ·)) (g := fun names =>
      { value := x.value :: names.value, taken := x.taken + 1 + names.taken }) ?_ fun names _ => rfl
    rw [readDeclared_eq, hx]
    change (if _ then _ else _) = _
    rw [if_pos hcomma]
    cases readDeclared (s.rest.drop (x.taken + 1)) <;> rfl
  | case3 s name s' hsome hlt hcomma =>
    obtain ⟨x, hx, rfl, hname⟩ := Agrees.exists_ok (hsome ▸ declaredName_agrees)
    rw [hname.rest_eq] at hcomma
    rw [readDeclared_eq, hx]
    change s.Agrees .ofTaken (if _ then _ else _) _
    rw [if_neg hcomma]
    exact ⟨s', rfl, hname⟩

/-! ## 2. Signatures and constants -/

/-- The type of the result, behind a colon. -/
def resultType : Production (Option TypeRef) := do
  if ← accept (·.atSymbol [.colon]) then return some (← type)
  else return none

def assigner : Production Unit := do
  if ← accept (·.atKeyword [.kwAssign]) then
    let _ ← expect Cursor.atIdentifier (.expectedName .assignerName)
    return ()
  else return ()

def signature : Production Signature := do
  let names ← declaredNames
  let parameters ← arguments
  let returnType ← resultType
  assigner
  return ⟨names, parameters, returnType⟩

/-- The value of a constant, behind the equals sign. -/
def constant (signature : Signature) : Production Declaration := do
  if signature.returnType.isNone then fail fun _ => .untypedConstant
  else
    let _ ← accept (·.atSymbol [.minus, .plus])
    match ← look (·.items.head?) with
    | some last =>
      if isConstant last.token then
        let _ ← advance
        return signature.constants last
      else fail .expectedConstant
    | none => fail .expectedConstant

theorem resultType_agrees : s.Agrees .ofPair (readResult s.rest) (resultType s) := by
  unfold resultType readResult
  refine accept_ite (harmless_symbol _) (.refl s) (fun h s₁ h₁ => ?_) fun h => ?_
  · rw [if_pos h, show s.rest.next = s₁.rest from h₁.rest_eq.symm]
    exact Agrees.bind h₁ type_agrees fun ⟨type, n⟩ s₂ _ h₂ => .ok h₂ rfl
  · rw [if_neg (by simp [h])]
    exact .ok (.refl s) rfl

theorem assigner_agrees : s.Agrees .ofNat (assignerLength s.rest) (assigner s) := by
  unfold assigner assignerLength
  refine accept_ite (harmless_keyword (by decide)) (.refl s) (fun h s₁ h₁ => ?_) fun h => ?_
  · rw [if_pos h, show s.rest.next = s₁.rest from h₁.rest_eq.symm]
    exact Agrees.expect_bind _ harmless_identifier h₁ fun _ s₂ h₂ => .ok h₂ rfl
  · rw [if_neg (by simp [h])]
    exact .ok (.refl s) rfl

theorem signature_agrees : s.Agrees .ofTaken (readSignature s.rest) (signature s) := by
  unfold signature readSignature
  refine Agrees.bind_first declaredNames_agrees fun names s₁ _ h₁ => ?_
  rw [← h₁.rest_eq]
  refine Agrees.bind h₁ arguments_agrees fun ⟨parameters, n₁⟩ s₂ _ h₂ => ?_
  dsimp only
  rw [← h₂.rest_eq]
  refine Agrees.bind h₂ resultType_agrees fun ⟨returnType, n₂⟩ s₃ _ h₃ => ?_
  dsimp only
  rw [← h₃.rest_eq]
  exact Agrees.bind h₃ assigner_agrees fun n₃ s₄ _ h₄ => .ok h₄ rfl

theorem items_ne_nil_of_signature {c : Cursor} {signature : Taken Signature}
    (h : readSignature c = .ok signature) : c.items ≠ [] := by
  obtain ⟨names, hnames, -⟩ := exists_of_bind_eq_ok h
  rw [readDeclared_eq] at hnames
  obtain ⟨x, hx, -⟩ := exists_of_bind_eq_ok hnames
  exact List.ne_nil_of_length_pos (size_pos_of_declaredName hx)

theorem plain_of_isConstant {t : Token} (h : isConstant t = true) :
    t.isKeyword [.kwFeature] = false := by
  unfold Token.isKeyword
  unfold isConstant at h
  split at h <;> simp_all

theorem constant_agrees (signature : Signature) :
    s.Agrees (fun d => ⟨d.value, d.taken, d.value.calls⟩) (readConstant signature s.rest)
      (constant signature s) := by
  unfold constant readConstant
  split
  · exact Agrees.fail (fun _ => .untypedConstant) (.refl s)
  · refine Passes.bind_first (acceptSymbol_passes _) fun s₁ h₁ => ?_
    dsimp only
    rw [← h₁.rest_eq, look_bind]
    cases hitems : s₁.rest.items with
    | nil => exact Agrees.fail _ h₁
    | cons last is =>
      dsimp only [List.head?_cons]
      split
      · rename_i hconstant
        have hharmless : Harmless fun c => c.test isConstant :=
          harmless_test fun t ht => plain_of_isConstant ht
        have hat : s₁.rest.test isConstant = true := by simpa [Cursor.test, hitems] using hconstant
        refine Passes.bind h₁ (advance_passes hharmless hat) fun s₂ h₂ => .ok h₂ ?_
        rw [Signature.calls_constants]
      · exact Agrees.fail _ h₁


/-! ## 3. Declarations -/

/-- The mark of an obsolete feature or class.  Its message may be missing. -/
def obsolete : Production Unit := do
  if ← accept (·.atKeyword [.kwObsolete]) then
    let _ ← accept Cursor.atString
    return ()
  else return ()

/-- The note of a feature, up to its routine. -/
def featureNote : Production Unit := do
  if ← accept (·.atKeyword [.kwNote]) then
    passUntil (·.token.isKeyword routineKeywords) (·.token.isKeyword (.kwEnd :: clauseKeywords))
      .noteWithoutBody
  else return ()

/-- What follows a signature that is not a constant's.  The last item of the signature is `last`. -/
def featureBody (signature : Signature) (last : Item) : Production Declaration := do
  obsolete
  featureNote
  if ← look Cursor.atRoutine then return signature.routines last (← routine)
  else if signature.returnType.isNone then
    fail (.bareFeature ((signature.names.head?.map (·.1.text)).getD ""))
  else return signature.attributes last

/-- The declaration that starts with the item `first`. -/
def declaration (first : Item) : Production Declaration := do
  if !first.startsDeclaration then fail .expectedFeature
  else
    let signature ← signature
    if ← accept (·.atSymbol [.equal]) then constant signature
    else
      let _ ← accept (·.atKeyword [.kwIs])
      let last := (← behind).getD first
      featureBody signature last

theorem obsolete_passes : s.Passes (.ofNat (obsoleteLength s.rest)) (obsolete s) := by
  unfold obsolete obsoleteLength
  refine accept_ite (harmless_keyword (by decide)) (.refl s) (fun h s₁ h₁ => ?_) fun h => ?_
  · rw [if_pos h, show s.rest.next = s₁.rest from h₁.rest_eq.symm]
    refine Passes.bind h₁ (accept_passes harmless_string) fun s₂ h₂ => ⟨s₂, rfl, h₂.cast ?_⟩
    split <;> rfl
  · rw [if_neg (by simp [h])]
    exact ⟨s, rfl, .refl s⟩

/-- A note of a feature is no passage: a feature keyword in it is a failure. -/
theorem featureNote_agrees : s.Agrees .ofNat (noteLength s.rest) (featureNote s) := by
  unfold featureNote noteLength
  refine accept_ite (harmless_keyword (by decide)) (.refl s) (fun h s₁ h₁ => ?_) fun h => ?_
  · rw [if_pos h, show s.rest.next = s₁.rest from h₁.rest_eq.symm]
    dsimp only
    split
    · rename_i i hi
      obtain ⟨s', hr, hfails⟩ := passUntil_of_some .noteWithoutBody hi
      exact ⟨s', hr, .of_moves h₁ hfails⟩
    · rename_i hnone
      rw [passUntil_of_none .noteWithoutBody hnone]
      refine ⟨_, rfl, h₁.trans (.of_plain fun i hi => ?_)⟩
      rw [take_length_takeWhile] at hi
      have hi := List.find?_eq_none.mp hnone i hi
      by_contra hopens
      exact hi (Token.isKeyword_mono (Bool.not_eq_false _ ▸ hopens) (by decide))
  · rw [if_neg (by simp [h])]
    exact .ok (.refl s) rfl

theorem featureBody_agrees {signature : Signature} (hnames : signature.names ≠ []) (last : Item) :
    s.Agrees (fun x => ⟨x.1, x.2, x.1.calls⟩) (readFeatureBody signature last s.rest)
      (featureBody signature last s) := by
  unfold featureBody readFeatureBody
  refine Passes.bind_first obsolete_passes fun s₁ h₁ => ?_
  dsimp only
  rw [← h₁.rest_eq]
  refine Agrees.bind h₁ featureNote_agrees fun n₂ s₂ _ h₂ => ?_
  rw [← h₂.rest_eq, look_bind]
  split
  · refine Agrees.bind h₂ routine_agrees fun routine s₃ _ h₃ => .ok h₃ ?_
    rw [signature.calls_routines last routine.value hnames]
  split
  · exact Agrees.fail _ h₂
  · refine .ok h₂ ?_
    rw [Signature.calls_attributes]

theorem declaration_agrees (first : Item) :
    s.Agrees (fun d => ⟨d.value, d.taken, d.value.calls⟩) (readDeclaration first s.rest)
      (declaration first s) := by
  unfold declaration readDeclaration
  split
  · exact Agrees.fail _ (.refl s)
  refine Agrees.bind_first signature_agrees fun signature s₁ hsignature h₁ => ?_
  have hnames : signature.value.names ≠ [] := readSignature_names_ne_nil hsignature
  refine accept_ite (harmless_symbol _) h₁ (fun h s₂ h₂ => ?_) fun h => ?_
  · rw [h₁.rest_eq] at h
    dsimp only
    rw [if_pos h, ← h₁.rest_eq, h₁.next_eq h₂]
    exact Agrees.last h₂ (constant_agrees _) fun d _ => ⟨_, rfl, rfl⟩
  · rw [h₁.rest_eq] at h
    dsimp only
    rw [if_neg (by simp [h])]
    refine Passes.bind h₁ (acceptKeyword_passes (by decide)) fun s₂ h₂ => ?_
    rw [h₁.rest_eq] at h₂
    have hlast := last?_eq h₂.text_eq h₂.pos_eq (Nat.add_pos_left signature.taken_pos _)
      (items_ne_nil_of_signature hsignature)
    change s.Agrees _ _ (featureBody signature.value ((s₂.text.last? s₂.pos).getD first) s₂)
    rw [hlast, ← h₂.rest_eq]
    exact Agrees.last h₂ (featureBody_agrees hnames _) fun x _ => ⟨_, rfl, rfl⟩

end Production

end ContractLint
