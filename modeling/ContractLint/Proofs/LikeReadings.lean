/-
# Class texts that read alike

What the grammar makes of alike tokens is alike.  The proof is a simulation: one lemma for each
production, at ANY two alike cursors.  The productions take the same branches, because every test of
the grammar looks at a kind, at a column or at the order of two lines; so they take the same number
of items, stand at alike cursors again, and either both succeed with alike results or both fail with
alike errors.  When a part cannot be read, the same items are passed over on both sides.

`parse_alike` is the result for whole texts.  It says nothing about a particular likeness: what may
change in a text without a change of its reading is a question of which relations are likenesses.
-/
import ContractLint.Proofs.Follow
import ContractLint.Proofs.LikeSpans

namespace ContractLint

open List (Forall₂)

/-! ## 1. Results with a number of items -/

section Results

variable {α β : Type} (R : α → β → Prop)

/-- Results as `R` says, with the same number of items. -/
structure Counted (x : α × Nat) (y : β × Nat) : Prop where
  value : R x.1 y.1
  taken : x.2 = y.2

structure Taken.Alike (x : Taken α) (y : Taken β) : Prop where
  value : R x.value y.value
  taken : x.taken = y.taken

structure Recovered.Alike (L : Likeness) (x : Recovered α) (y : Recovered β) : Prop where
  value : R x.value y.value
  taken : x.taken = y.taken
  errors : Forall₂ (SyntaxError.Alike L) x.errors y.errors
  resumed : Forall₂ L.token x.resumed y.resumed

end Results

variable {L : Likeness} {c d : Cursor}

section Binds

variable {α β γ δ : Type} {R : α → β → Prop} {S : γ → δ → Prop}

/-- After a step that takes a number of items, reading goes on with one number for both sides. -/
theorem Attempt.Alike.bindCounted {x : Except SyntaxError (α × Nat)}
    {y : Except SyntaxError (β × Nat)} {f : α × Nat → Except SyntaxError γ}
    {g : β × Nat → Except SyntaxError δ} (h : Alike L (Counted R) x y)
    (hfg : ∀ a b n, R a b → Alike L S (f (a, n)) (g (b, n))) : Alike L S (x >>= f) (y >>= g) := by
  refine h.bind fun ⟨a, m⟩ ⟨b, n⟩ ⟨hab, hmn⟩ => ?_
  dsimp only at hmn
  subst hmn
  exact hfg a b m hab

theorem Attempt.Alike.bindTaken {x : Except SyntaxError (Taken α)}
    {y : Except SyntaxError (Taken β)} {f : Taken α → Except SyntaxError γ}
    {g : Taken β → Except SyntaxError δ} (h : Alike L (Taken.Alike R) x y)
    (hfg : ∀ a b n hn, R a b → Alike L S (f ⟨a, n, hn⟩) (g ⟨b, n, hn⟩)) :
    Alike L S (x >>= f) (y >>= g) := by
  refine h.bind fun ⟨a, m, hm⟩ ⟨b, n, hn⟩ ⟨hab, hmn⟩ => ?_
  dsimp only at hmn
  subst hmn
  exact hfg a b m hm hab

end Binds

theorem Cursor.Alike.fail {α β : Type} {R : α → β → Prop} {f g : SyntaxFault}
    (h : Cursor.Alike L c d) (hfg : SyntaxFault.Alike L f g) :
    Attempt.Alike L R (c.fail f) (d.fail g) :=
  .error ⟨hfg, h.peek_place⟩

/-! ## 2. Passing over items -/

theorem bracketLengthFrom_alike {is js : List Item} (h : Forall₂ (Item.Alike L) is js)
    (depth : Nat) : bracketLengthFrom depth is = bracketLengthFrom depth js := by
  induction h generalizing depth with
  | nil => rfl
  | cons hij _ ih =>
    rw [bracketLengthFrom, bracketLengthFrom, L.isSymbol_eq hij.token, L.isSymbol_eq hij.token, ih,
      ih, ih]

theorem bracketLength_alike (h : Cursor.Alike L c d) : c.bracketLength = d.bracketLength := by
  unfold Cursor.bracketLength
  rw [h.atSymbol, bracketLengthFrom_alike h.items]

theorem enclosed_alike (h : Cursor.Alike L c d) (close : Symbol) :
    Counted (Forall₂ L.token) (c.enclosed close) (d.enclosed close) := by
  have hinside : Forall₂ (Item.Alike L)
      (c.next.items.takeWhile fun i => !i.token.isSymbol [close])
      (d.next.items.takeWhile fun i => !i.token.isSymbol [close]) := by
    refine forall₂_takeWhile (fun i j hij => ?_) h.next.items
    rw [L.isSymbol_eq hij.token]
  unfold Cursor.enclosed
  dsimp only
  refine ⟨List.rel_map (fun _ _ hij => hij.token) hinside, ?_⟩
  dsimp only
  rw [hinside.length_eq, (h.next.drop _).optSymbol]

theorem passOver_alike (n : Nesting) {i j : Item} {o o' : Option Item} (h : Item.Alike L i j)
    (ho : Option.Rel (Item.Alike L) o o') : n.passOver i o = n.passOver j o' := by
  unfold Nesting.passOver
  rw [L.isKeyword_eq h.token, feed_alike n h.token (rel_map (fun _ _ hij => hij.token) ho)]

theorem resumesAt_alike (column : Option Int) (n : Nesting) {i j : Item} (h : Item.Alike L i j) :
    resumesAt column n i = resumesAt column n j := by
  unfold resumesAt
  rw [L.isKeyword_eq h.token, L.isKeyword_eq h.token, h.isSibling_eq]

theorem closesLast_alike (n : Nesting) {i j : Item} (h : Item.Alike L i j) :
    closesLast n i = closesLast n j := by
  unfold closesLast
  rw [L.isKeyword_eq h.token]

theorem skipLength_alike (column : Option Int) {is js : List Item}
    (h : Forall₂ (Item.Alike L) is js) (n : Nesting) :
    skipLength column n is = skipLength column n js := by
  induction h generalizing n with
  | nil => rfl
  | cons hij hrest ih =>
    rw [skipLength, skipLength, resumesAt_alike column n hij, closesLast_alike n hij,
      passOver_alike n hij (forall₂_head? hrest), ih]

theorem passLength_alike (column : Option Int) {i j : Item} {is js : List Item}
    (hij : Item.Alike L i j) (h : Forall₂ (Item.Alike L) is js) :
    passLength column i is = passLength column j js := by
  unfold passLength
  rw [passOver_alike _ hij (forall₂_head? h), skipLength_alike column h]

/-- **Reading resumes at alike items**: the same number of items is passed over. -/
theorem resumeLength_alike (h : Cursor.Alike L c d) (column : Option Int) :
    c.resumeLength column = d.resumeLength column := by
  obtain ⟨is, e⟩ := c
  obtain ⟨js, e'⟩ := d
  obtain ⟨hitems, -⟩ := h
  unfold Cursor.resumeLength
  cases hitems with
  | nil => rfl
  | cons hij hrest =>
    dsimp only
    rw [resumesAt_alike none {} hij, passLength_alike column hij hrest]

/-! ## 3. Types and entities -/

theorem readTypeMark_alike (h : Cursor.Alike L c d) : readTypeMark c = readTypeMark d := by
  unfold readTypeMark
  simp only [h.atKeyword, h.atSymbol]

theorem qualifierLength_alike {is js : List Item} (h : Forall₂ (Item.Alike L) is js) :
    qualifierLength is = qualifierLength js := by
  fun_induction qualifierLength is generalizing js with
  | case1 e i rest hmatch ih =>
    rcases h with _ | ⟨he, _ | ⟨hi, h⟩⟩
    rw [qualifierLength, ← L.isSymbol_eq he.token, ← L.isIdentifier_eq hi.token, if_pos hmatch,
      ih h]
  | case2 e i rest hmatch =>
    rcases h with _ | ⟨he, _ | ⟨hi, h⟩⟩
    rw [qualifierLength, ← L.isSymbol_eq he.token, ← L.isIdentifier_eq hi.token, if_neg hmatch]
  | case3 is hshort =>
    rcases h with _ | ⟨he, _ | ⟨hi, h⟩⟩
    · rfl
    · rfl
    · exact absurd rfl (hshort _ _ _)

theorem typeLength_alike (h : Cursor.Alike L c d) :
    Attempt.Alike L Eq (typeLength c) (typeLength d) := by
  unfold typeLength
  simp only [h.atKeyword, h.atIdentifier, h.next.atKeyword, h.next.atIdentifier,
    bracketLength_alike h.next, qualifierLength_alike (h.drop 2).items]
  split
  · split
    · exact .ok rfl
    · exact h.next.fail (.expectedAnchor h.next.peek)
  split
  · exact .ok rfl
  · exact h.fail (.expectedType h.peek)

theorem readType_alike (h : Cursor.Alike L c d) :
    Attempt.Alike L (Counted (TypeRef.Alike L)) (readType c) (readType d) := by
  unfold readType
  simp only [readTypeMark_alike h, (h.drop _).optKeyword]
  refine .bind (typeLength_alike (h.drop _)) fun m n hmn => ?_
  subst hmn
  exact .ok ⟨⟨L.text_render ((h.drop _).take m), rfl, h.peek_place⟩, rfl⟩

theorem readNames_alike (role : NameRole) (h : Cursor.Alike L c d) :
    Attempt.Alike L (Forall₂ (Name.Alike L L.name)) (readNames role c) (readNames role d) := by
  fun_induction readNames role c generalizing d with
  | case1 c hname hsize hcomma names hrest ih =>
    obtain ⟨names', hrest', hnames⟩ := (ih (h.drop 2)).of_ok hrest
    rw [readNames, dif_pos (h.atIdentifier ▸ hname), if_pos (h.next.atSymbol _ ▸ hcomma), hrest']
    exact .ok (.cons (h.peek_name hname) hnames)
  | case2 c hname hsize hcomma e hrest ih =>
    obtain ⟨e', hrest', herror⟩ := (ih (h.drop 2)).of_error hrest
    rw [readNames, dif_pos (h.atIdentifier ▸ hname), if_pos (h.next.atSymbol _ ▸ hcomma), hrest']
    exact .error herror
  | case3 c hname hsize hcomma =>
    rw [readNames, dif_pos (h.atIdentifier ▸ hname), if_neg (h.next.atSymbol _ ▸ hcomma)]
    exact .ok (.cons (h.peek_name hname) .nil)
  | case4 c hname =>
    rw [readNames, dif_neg (h.atIdentifier ▸ hname)]
    exact h.fail (.expectedName role h.peek)

theorem readEntities_alike (role : NameRole) (h : Cursor.Alike L c d) :
    Attempt.Alike L (Taken.Alike (Forall₂ (Entity.Alike L))) (readEntities role c)
      (readEntities role d) := by
  unfold readEntities
  refine .bind (readNames_alike role h) fun names names' hnames => ?_
  have hcolon := h.drop (2 * names'.length - 1)
  simp only [hnames.length_eq, hcolon.atSymbol]
  split
  · refine .bindCounted (readType_alike hcolon.next) fun type type' k htype => ?_
    refine .ok ⟨List.rel_map (fun _ _ hname => ⟨hname, htype⟩) hnames, ?_⟩
    dsimp only
    rw [(h.drop _).optSymbol]
  · exact hcolon.fail (.expectedSymbol _ hcolon.peek)

theorem readArgumentGroups_alike (h : Cursor.Alike L c d) :
    Attempt.Alike L (Counted (Forall₂ (Entity.Alike L))) (readArgumentGroups c)
      (readArgumentGroups d) := by
  fun_induction readArgumentGroups c generalizing d with
  | case1 c hclose =>
    rw [readArgumentGroups, if_pos (h.atSymbol _ ▸ hclose)]
    exact .ok ⟨.nil, rfl⟩
  | case2 c hclose hname hsize ih =>
    rw [readArgumentGroups, if_neg (h.atSymbol _ ▸ hclose), dif_pos (h.atIdentifier ▸ hname)]
    refine .bindTaken (readEntities_alike .argumentName h) fun group group' n hn hgroup => ?_
    refine .bindCounted (ih ⟨group, n, hn⟩ (h.drop _)) fun rest rest' k hrest => ?_
    exact .ok ⟨List.rel_append hgroup hrest, rfl⟩
  | case3 c hclose hname =>
    rw [readArgumentGroups, if_neg (h.atSymbol _ ▸ hclose), dif_neg (h.atIdentifier ▸ hname)]
    exact h.fail (.expectedName _ h.peek)

theorem readArguments_alike (h : Cursor.Alike L c d) :
    Attempt.Alike L (Counted (Forall₂ (Entity.Alike L))) (readArguments c) (readArguments d) := by
  unfold readArguments
  rw [h.atSymbol]
  split
  · refine .bindCounted (readArgumentGroups_alike h.next) fun es es' n hes => ?_
    exact .ok ⟨hes, rfl⟩
  · exact .ok ⟨.nil, rfl⟩

theorem readLocalGroups_alike (h : Cursor.Alike L c d) :
    Attempt.Alike L (Counted (Forall₂ (Entity.Alike L))) (readLocalGroups c)
      (readLocalGroups d) := by
  fun_induction readLocalGroups c generalizing d with
  | case1 c hname hsize ih =>
    rw [readLocalGroups, dif_pos (h.atIdentifier ▸ hname)]
    refine .bindTaken (readEntities_alike .localName h) fun group group' n hn hgroup => ?_
    refine .bindCounted (ih ⟨group, n, hn⟩ (h.drop _)) fun rest rest' k hrest => ?_
    exact .ok ⟨List.rel_append hgroup hrest, rfl⟩
  | case2 c hname =>
    rw [readLocalGroups, dif_neg (h.atIdentifier ▸ hname)]
    exact .ok ⟨.nil, rfl⟩

theorem readLocals_alike (h : Cursor.Alike L c d) :
    Attempt.Alike L (Counted (Forall₂ (Entity.Alike L))) (readLocals c) (readLocals d) := by
  unfold readLocals
  rw [h.atKeyword]
  split
  · refine .bindCounted (readLocalGroups_alike h.next) fun es es' n hes => ?_
    exact .ok ⟨hes, rfl⟩
  · exact .ok ⟨.nil, rfl⟩

/-! ## 4. Routines -/

theorem readBlock_alike (g : BlockGrammar) (h : Cursor.Alike L c d) :
    Taken.Alike (AssertionBlock.Alike L) (readBlock g c) (readBlock g d) := by
  have hinner := h.drop (1 + d.next.optKeyword g.extension)
  have hspan := spanLength_alike g.stops [.kwFeature] hinner.tokens
  unfold readBlock
  simp only [h.next.optKeyword, hspan]
  exact ⟨⟨rfl, h.peek_place, assertions_alike (hinner.take _), rfl⟩, rfl⟩

theorem readBlock?_alike (g : BlockGrammar) (keyword : Keyword) (h : Cursor.Alike L c d) :
    Counted (Option.Rel (AssertionBlock.Alike L)) (readBlock? g keyword c)
      (readBlock? g keyword d) := by
  unfold readBlock?
  rw [h.atKeyword]
  split
  · exact ⟨.some (readBlock_alike g h).value, (readBlock_alike g h).taken⟩
  · exact ⟨.none, rfl⟩

theorem bodyLength_alike (h : Cursor.Alike L c d) : c.bodyLength = d.bodyLength :=
  spanLength_alike bodyStops [.kwFeature] h.tokens

theorem readOnceKeys_alike (h : Cursor.Alike L c d) : readOnceKeys c = readOnceKeys d := by
  unfold readOnceKeys
  rw [h.atSymbol]
  split
  · obtain ⟨hinside, htaken⟩ := enclosed_alike h .closeParen
    have hstrings := forall₂_filter_and (fun t u htu => L.isString_eq htu) hinside
    have hkeys : ((c.enclosed .closeParen).1.filter Token.isString).map Token.value =
        ((d.enclosed .closeParen).1.filter Token.isString).map Token.value :=
      forall₂_map_eq (fun t u htu => L.value_eq htu.2 (by simpa [Token.isString] using htu.1))
        hstrings
    dsimp only
    rw [hkeys, htaken]
  · rfl

theorem externalLength_alike (h : Cursor.Alike L c d) :
    Attempt.Alike L Eq (externalLength c) (externalLength d) := by
  unfold externalLength
  simp only [h.atString, h.next.atKeyword, (h.drop _).atString]
  split
  · split
    · split
      · exact .ok rfl
      · exact (h.drop 2).fail (.plain rfl)
    · exact .ok rfl
  · exact h.fail (.plain rfl)

theorem readBody_alike (h : Cursor.Alike L c d) :
    Attempt.Alike L (Taken.Alike (Body.Alike L)) (readBody c) (readBody d) := by
  unfold readBody
  simp only [h.atKeyword, readOnceKeys_alike h.next, bodyLength_alike h.next,
    bodyLength_alike (h.drop _)]
  split
  · exact .ok ⟨.instructions (h.next.take _), rfl⟩
  split
  · exact .ok ⟨.once _ ((h.drop _).take _), rfl⟩
  split
  · exact .ok ⟨.attributive (h.next.take _), rfl⟩
  split
  · exact .ok ⟨.deferred, rfl⟩
  split
  · cases hlength : externalLength c.next with
    | ok n =>
      obtain ⟨n', hlength', rfl⟩ := (externalLength_alike h.next).of_ok hlength
      rw [hlength']
      exact .ok ⟨.external, rfl⟩
    | error e =>
      obtain ⟨e', hlength', herror⟩ := (externalLength_alike h.next).of_error hlength
      rw [hlength']
      exact .error herror
  · exact h.fail (.expectedBody h.peek)

theorem rescueLength_alike (h : Cursor.Alike L c d) : rescueLength c = rescueLength d := by
  unfold rescueLength
  rw [h.atKeyword, bodyLength_alike h.next]

structure Routine.Alike (L : Likeness) (r s : Routine) : Prop where
  precondition : Option.Rel (AssertionBlock.Alike L) r.precondition s.precondition
  locals : Forall₂ (Entity.Alike L) r.locals s.locals
  body : Body.Alike L r.body s.body
  postcondition : Option.Rel (AssertionBlock.Alike L) r.postcondition s.postcondition
  endLocation : L.place r.endLocation s.endLocation

theorem Body.Alike.tokens_alike {a b : Body} (h : Body.Alike L a b) :
    Forall₂ L.token a.tokens b.tokens := by
  cases h with
  | instructions h | once _ h | attributive h => exact h
  | absent | deferred | external => exact .nil

theorem Routine.Alike.constructs_alike {r s : Routine} (h : Routine.Alike L r s) :
    Forall₂ (Construct.Alike L) r.constructs s.constructs := by
  refine List.rel_append (List.rel_append ?_ ?_) ?_
  · exact List.rel_flatMap (statements_alike h.body.tokens_alike)
      fun _ _ => ContractLint.constructs_alike
  · exact List.rel_flatMap (rel_toList h.precondition) fun _ _ => AssertionBlock.constructs_alike
  · exact List.rel_flatMap (rel_toList h.postcondition) fun _ _ => AssertionBlock.constructs_alike

/-- **Routines are read alike.** -/
theorem readRoutine_alike (h : Cursor.Alike L c d) :
    Attempt.Alike L (Taken.Alike (Routine.Alike L)) (readRoutine c) (readRoutine d) := by
  have hpre := readBlock?_alike .precondition .kwRequire h
  unfold readRoutine
  dsimp only
  rw [hpre.taken]
  refine .bindCounted (readLocals_alike (h.drop _)) fun locals locals' n hlocals => ?_
  refine .bindTaken (readBody_alike (h.drop _)) fun body body' k hk hbody => ?_
  have hpost := readBlock?_alike .postcondition .kwEnsure
    (h.drop ((readBlock? .precondition .kwRequire d).2 + n + k))
  simp only [hpost.taken, rescueLength_alike (h.drop _), (h.drop _).atKeyword]
  split
  · exact .ok ⟨⟨hpre.value, hlocals, hbody, hpost.value, (h.drop _).peek_place⟩, rfl⟩
  · exact (h.drop _).fail (.expectedKeyword _ (h.drop _).peek)

/-! ## 5. Declarations -/

/-- Declared names that are alike and both frozen or both not. -/
def AlikeDeclared (L : Likeness) (a b : Name × Bool) : Prop :=
  Name.Alike L L.name a.1 b.1 ∧ a.2 = b.2

structure Signature.Alike (L : Likeness) (s r : Signature) : Prop where
  names : Forall₂ (AlikeDeclared L) s.names r.names
  parameters : Forall₂ (Entity.Alike L) s.parameters r.parameters
  returnType : Option.Rel (TypeRef.Alike L) s.returnType r.returnType

structure Declaration.Alike (L : Likeness) (a b : Declaration) : Prop where
  features : Forall₂ (Feature.Alike L) a.features b.features
  errors : Forall₂ (SyntaxError.Alike L) a.errors b.errors

theorem aliasLength_alike (h : Cursor.Alike L c d) :
    Attempt.Alike L Eq (aliasLength c) (aliasLength d) := by
  unfold aliasLength
  simp only [h.atKeyword, h.next.atString, (h.drop _).optKeyword]
  split
  · split
    · exact .ok rfl
    · exact h.next.fail (.plain rfl)
  · exact .ok rfl

theorem readDeclared_alike (h : Cursor.Alike L c d) :
    Attempt.Alike L (Taken.Alike (Forall₂ (AlikeDeclared L))) (readDeclared c)
      (readDeclared d) := by
  fun_induction readDeclared c generalizing d with
  | case1 c frozen name hname hsize e =>
    rename_i halias
    have hn : Cursor.Alike L name (d.drop frozen) := h.drop frozen
    obtain ⟨e', halias', herror⟩ := (aliasLength_alike hn.next).of_error halias
    rw [readDeclared]
    simp only [← h.optKeyword]
    rw [dif_pos (hn.atIdentifier ▸ hname), halias']
    exact .error herror
  | case2 c frozen name hname hsize k halias declared hcomma names =>
    rename_i hnames ih
    have hn : Cursor.Alike L name (d.drop frozen) := h.drop frozen
    obtain ⟨_, halias', rfl⟩ := (aliasLength_alike hn.next).of_ok halias
    obtain ⟨names', hnames', hrest⟩ := (ih (h.drop _)).of_ok hnames
    rw [readDeclared]
    simp only [← h.optKeyword]
    rw [dif_pos (hn.atIdentifier ▸ hname), halias']
    dsimp only
    rw [if_pos ((h.drop _).atSymbol _ ▸ hcomma), hnames']
    exact .ok ⟨.cons ⟨hn.peek_name hname, rfl⟩ hrest.value,
      congrArg (frozen + 1 + k + 1 + ·) hrest.taken⟩
  | case3 c frozen name hname hsize k halias hcomma e hnames =>
    rename_i ih
    have hn : Cursor.Alike L name (d.drop frozen) := h.drop frozen
    obtain ⟨_, halias', rfl⟩ := (aliasLength_alike hn.next).of_ok halias
    obtain ⟨e', hnames', herror⟩ := (ih (h.drop _)).of_error hnames
    rw [readDeclared]
    simp only [← h.optKeyword]
    rw [dif_pos (hn.atIdentifier ▸ hname), halias']
    dsimp only
    rw [if_pos ((h.drop _).atSymbol _ ▸ hcomma), hnames']
    exact .error herror
  | case4 c frozen name hname hsize k halias =>
    rename_i declared hcomma
    have hn : Cursor.Alike L name (d.drop frozen) := h.drop frozen
    obtain ⟨_, halias', rfl⟩ := (aliasLength_alike hn.next).of_ok halias
    rw [readDeclared]
    simp only [← h.optKeyword]
    rw [dif_pos (hn.atIdentifier ▸ hname), halias']
    dsimp only
    rw [if_neg ((h.drop _).atSymbol _ ▸ hcomma)]
    exact .ok ⟨.cons ⟨hn.peek_name hname, rfl⟩ .nil, rfl⟩
  | case5 c frozen name =>
    rename_i hname
    have hn : Cursor.Alike L name (d.drop frozen) := h.drop frozen
    rw [readDeclared]
    simp only [← h.optKeyword]
    rw [dif_neg (hn.atIdentifier ▸ hname)]
    exact hn.fail (.expectedName _ hn.peek)

theorem readResult_alike (h : Cursor.Alike L c d) :
    Attempt.Alike L (Counted (Option.Rel (TypeRef.Alike L))) (readResult c) (readResult d) := by
  unfold readResult
  rw [h.atSymbol]
  split
  · exact .bindCounted (readType_alike h.next) fun _ _ _ htype => .ok ⟨.some htype, rfl⟩
  · exact .ok ⟨.none, rfl⟩

theorem assignerLength_alike (h : Cursor.Alike L c d) :
    Attempt.Alike L Eq (assignerLength c) (assignerLength d) := by
  unfold assignerLength
  rw [h.atKeyword, h.next.atIdentifier]
  split
  · split
    · exact .ok rfl
    · exact h.next.fail (.expectedName _ h.next.peek)
  · exact .ok rfl

theorem obsoleteLength_alike (h : Cursor.Alike L c d) : obsoleteLength c = obsoleteLength d := by
  unfold obsoleteLength
  rw [h.atKeyword, h.next.atString]

theorem noteLength_alike (h : Cursor.Alike L c d) :
    Attempt.Alike L Eq (noteLength c) (noteLength d) := by
  have hinside : Forall₂ (Item.Alike L)
      (c.next.items.takeWhile fun i => !i.token.isKeyword routineKeywords)
      (d.next.items.takeWhile fun i => !i.token.isKeyword routineKeywords) := by
    refine forall₂_takeWhile (fun i j hij => ?_) h.next.items
    rw [L.isKeyword_eq hij.token]
  have hfind := forall₂_find? (p := fun i => i.token.isKeyword (.kwEnd :: clauseKeywords))
    (q := fun i => i.token.isKeyword (.kwEnd :: clauseKeywords))
    (fun i j hij => L.isKeyword_eq hij.token _) hinside
  unfold noteLength
  rw [h.atKeyword]
  dsimp only
  split
  · generalize (c.next.items.takeWhile _).find? _ = found at hfind ⊢
    generalize (d.next.items.takeWhile _).find? _ = found' at hfind ⊢
    cases hfind with
    | none => exact .ok (congrArg (1 + ·) hinside.length_eq)
    | some hij => exact .error ⟨.plain rfl, L.place_token hij.token⟩
  · exact .ok rfl

theorem atRoutine_alike (h : Cursor.Alike L c d) : c.atRoutine = d.atRoutine := by
  unfold Cursor.atRoutine
  rw [h.atKeyword, h.atKeyword, h.next.atString]

theorem readSignature_alike (h : Cursor.Alike L c d) :
    Attempt.Alike L (Taken.Alike (Signature.Alike L)) (readSignature c) (readSignature d) := by
  unfold readSignature
  refine .bindTaken (readDeclared_alike h) fun names names' k hk hnames => ?_
  refine .bindCounted (readArguments_alike (h.drop _)) fun es es' n₁ hes => ?_
  refine .bindCounted (readResult_alike (h.drop _)) fun type type' n₂ htype => ?_
  refine .bind (assignerLength_alike (h.drop _)) fun n₃ n₃' hn => ?_
  subst hn
  exact .ok ⟨⟨hnames, hes, htype⟩, rfl⟩

section Made

variable {s r : Signature} {i j : Item} (h : Signature.Alike L s r) (hij : Item.Alike L i j)
include h hij

theorem constants_alike : Declaration.Alike L (s.constants i) (r.constants j) where
  features := List.rel_map (fun _ _ hname =>
    { name := hname.1
      frozen := hname.2
      parameters := .nil
      returnType := h.returnType
      headerComment := hij.headerComment_eq
      precondition := .none
      postcondition := .none
      locals := .nil
      body := .absent
      agents := .nil
      quantifiers := .nil
      innerBlocks := .nil
      endLocation := L.place_token hij.token }) h.names
  errors := .nil

theorem attributes_alike : Declaration.Alike L (s.attributes i) (r.attributes j) where
  features := List.rel_map (fun _ _ hname =>
    { name := hname.1
      frozen := hname.2
      parameters := h.parameters
      returnType := h.returnType
      headerComment := hij.headerComment_eq
      precondition := .none
      postcondition := .none
      locals := .nil
      body := .absent
      agents := .nil
      quantifiers := .nil
      innerBlocks := .nil
      endLocation := L.place_token hij.token }) h.names
  errors := .nil

theorem routines_alike {a b : Routine} (hab : Routine.Alike L a b) :
    Declaration.Alike L (s.routines i a) (r.routines j b) where
  features := List.rel_map (fun _ _ hname =>
    { name := hname.1
      frozen := hname.2
      parameters := h.parameters
      returnType := h.returnType
      headerComment := hij.headerComment_eq
      precondition := hab.precondition
      postcondition := hab.postcondition
      locals := hab.locals
      body := hab.body
      agents := agents_alike hab.constructs_alike
      quantifiers := quantifiers_alike hab.constructs_alike
      innerBlocks := innerBlocks_alike hab.body.tokens_alike
      endLocation := hab.endLocation }) h.names
  errors := faults_alike hab.constructs_alike

end Made

theorem readConstant_alike {s r : Signature} (hs : Signature.Alike L s r)
    (h : Cursor.Alike L c d) :
    Attempt.Alike L (Taken.Alike (Declaration.Alike L)) (readConstant s c) (readConstant r d) := by
  have hvalue := h.drop (d.optSymbol [.minus, .plus])
  unfold readConstant
  simp only [rel_isNone hs.returnType, h.optSymbol]
  split
  · exact h.fail (.plain rfl)
  · cases hc : (c.drop (d.optSymbol [.minus, .plus])).items with
    | nil =>
      rw [hvalue.items_of_nil hc]
      exact hvalue.fail (.expectedConstant hvalue.peek)
    | cons i is =>
      obtain ⟨j, js, hij, -, hd⟩ := hvalue.items_of_cons hc
      rw [hd]
      dsimp only
      rw [L.isConstant_eq hij.token]
      split
      · exact .ok ⟨constants_alike hs hij, rfl⟩
      · exact hvalue.fail (.expectedConstant hvalue.peek)

theorem readFeatureBody_alike {s r : Signature} {i j : Item} (hs : Signature.Alike L s r)
    (hij : Item.Alike L i j) (h : Cursor.Alike L c d) :
    Attempt.Alike L (Counted (Declaration.Alike L)) (readFeatureBody s i c)
      (readFeatureBody r j d) := by
  have hname : L.name ((s.names.head?.map (·.1.text)).getD "")
      ((r.names.head?.map (·.1.text)).getD "") :=
    rel_getD (rel_map (fun _ _ hname => hname.1.text) (forall₂_head? hs.names)) L.name_empty
  unfold readFeatureBody
  rw [obsoleteLength_alike h]
  refine .bind (noteLength_alike (h.drop _)) fun n n' hn => ?_
  subst hn
  simp only [atRoutine_alike (h.drop _), rel_isNone hs.returnType]
  split
  · refine .bindTaken (readRoutine_alike (h.drop _)) fun a b k hk hab => ?_
    exact .ok ⟨routines_alike hs hij hab, rfl⟩
  split
  · exact (h.drop _).fail (.bareFeature hname (h.drop _).peek)
  · exact .ok ⟨attributes_alike hs hij, rfl⟩

/-- **Declarations are read alike.** -/
theorem readDeclaration_alike {i j : Item} (hij : Item.Alike L i j) (h : Cursor.Alike L c d) :
    Attempt.Alike L (Taken.Alike (Declaration.Alike L)) (readDeclaration i c)
      (readDeclaration j d) := by
  unfold readDeclaration
  rw [hij.startsDeclaration_eq]
  split
  · exact h.fail (.expectedFeature h.peek)
  refine .bindTaken (readSignature_alike h) fun s r n hn hs => ?_
  simp only [(h.drop _).atSymbol, (h.drop _).optKeyword]
  split
  · refine .bindTaken (readConstant_alike hs (h.drop _).next) fun a b k hk hab => ?_
    exact .ok ⟨hab, rfl⟩
  · have hlast := rel_getD (h.last? (n + (d.drop n).optKeyword [.kwIs])) hij
    refine .bindCounted (readFeatureBody_alike hs hlast (h.drop _)) fun a b k hab => ?_
    exact .ok ⟨hab, rfl⟩

/-- **Lists of declarations are read alike**, and reading resumes at alike tokens. -/
theorem readFeatures_alike (h : Cursor.Alike L c d) :
    Recovered.Alike (Forall₂ (Feature.Alike L)) L (readFeatures c) (readFeatures d) := by
  fun_induction readFeatures c generalizing d with
  | case1 c hc =>
    rw [readFeatures_of_boundary (by simp [h.items_of_nil hc])]
    exact ⟨.nil, rfl, .nil, .nil⟩
  | case2 c i is hc hsize hi =>
    obtain ⟨j, js, hij, -, hd⟩ := h.items_of_cons hc
    rw [L.isKeyword_eq hij.token] at hi
    rw [readFeatures_of_boundary (by simp [hd, hi])]
    exact ⟨.nil, rfl, .nil, .nil⟩
  | case3 c i is hc hsize hi x hx =>
    rename_i ih
    obtain ⟨j, js, hij, -, hd⟩ := h.items_of_cons hc
    obtain ⟨y, hy, hxy⟩ := (readDeclaration_alike hij h).of_ok hx
    rw [L.isKeyword_eq hij.token, Bool.not_eq_true] at hi
    have hrest := ih (h.drop _)
    rw [readFeatures_of_ok hd hi hy, ← hxy.taken]
    exact
      { value := List.rel_append hxy.value.features hrest.value
        taken := congrArg (x.taken + ·) hrest.taken
        errors := List.rel_append hxy.value.errors hrest.errors
        resumed := hrest.resumed }
  | case4 c i is hc hsize hi e he n =>
    rename_i ih
    obtain ⟨j, js, hij, hjs, hd⟩ := h.items_of_cons hc
    obtain ⟨f, hf, hef⟩ := (readDeclaration_alike hij h).of_error he
    rw [L.isKeyword_eq hij.token, Bool.not_eq_true] at hi
    have hn : passLength (some j.token.column) j js = n := by
      rw [← L.column_eq hij.token, ← passLength_alike _ hij hjs]
    have hrest := ih (h.drop n)
    rw [readFeatures_of_error hd hi hf hn]
    exact
      { value := hrest.value
        taken := congrArg (n + ·) hrest.taken
        errors := .cons hef hrest.errors
        resumed := .cons (h.drop n).peek hrest.resumed }

/-! ## 6. Clauses -/

theorem readClients_alike (h : Cursor.Alike L c d) :
    Counted (Forall₂ L.name) (readClients c) (readClients d) := by
  unfold readClients
  rw [h.atSymbol]
  split
  · obtain ⟨hinside, htaken⟩ := enclosed_alike h .closeBrace
    have hnames := forall₂_filter_and (fun t u htu => L.isIdentifier_eq htu) hinside
    refine ⟨List.rel_map (fun t u htu => ?_) hnames, htaken⟩
    exact L.name_token htu.2 (by simpa [Token.isIdentifier] using htu.1)
  · exact ⟨.nil, rfl⟩

theorem adaptationLength_alike (h : Cursor.Alike L c d) :
    Attempt.Alike L Eq (adaptationLength c) (adaptationLength d) := by
  have hinside : Forall₂ (Item.Alike L)
      (c.items.takeWhile fun i => !i.token.isKeyword [.kwEnd])
      (d.items.takeWhile fun i => !i.token.isKeyword [.kwEnd]) := by
    refine forall₂_takeWhile (fun i j hij => ?_) h.items
    rw [L.isKeyword_eq hij.token]
  have hfind := forall₂_find? (p := fun i => i.startsLine && i.token.isKeyword clauseKeywords)
    (q := fun i => i.startsLine && i.token.isKeyword clauseKeywords)
    (fun i j hij => by rw [hij.startsLine, L.isKeyword_eq hij.token]) hinside
  unfold adaptationLength
  rw [h.atKeyword]
  dsimp only
  split
  · rw [hinside.length_eq, (h.drop _).atKeyword]
    generalize (c.items.takeWhile _).find? _ = found at hfind ⊢
    generalize (d.items.takeWhile _).find? _ = found' at hfind ⊢
    cases hfind with
    | some hij => exact .error ⟨.plain rfl, L.place_token hij.token⟩
    | none =>
      dsimp only
      split
      · exact .ok rfl
      · exact (h.drop _).fail (.expectedKeyword _ (h.drop _).peek)
  · exact .ok rfl

/-- The parents at the cursors are alike, if there are parents. -/
theorem peek_parent_alike (h : Cursor.Alike L c d)
    (hname : (c.atIdentifier || c.atKeyword [.kwTuple]) = true) :
    Name.Alike L L.parent c.peek.name d.peek.name := by
  refine ⟨L.parent_token h.peek ?_, h.peek_place⟩
  unfold Cursor.atIdentifier Cursor.atKeyword Cursor.test at hname
  unfold Cursor.peek
  cases hi : c.items with
  | nil => simp [hi] at hname
  | cons i is =>
    simp only [hi, List.head?_cons, Option.any_some, Bool.or_eq_true] at hname
    refine hname.imp (fun h => by simpa [Token.isIdentifier] using h) fun h => ?_
    unfold Token.isKeyword at h
    split at h
    · rename_i w hw
      simpa [hw] using h
    · cases h

theorem readParents_alike (h : Cursor.Alike L c d) :
    Attempt.Alike L (Counted (Forall₂ (Name.Alike L L.parent))) (readParents c)
      (readParents d) := by
  fun_induction readParents c generalizing d with
  | case1 c hend =>
    rw [readParents, dif_pos (h.atEnd ▸ hend)]
    exact .ok ⟨.nil, rfl⟩
  | case2 c hend hsize hname n =>
    rename_i ih
    rw [readParents, dif_neg (h.atEnd ▸ hend), if_pos (h.atIdentifier ▸ h.atKeyword _ ▸ hname)]
    rw [← bracketLength_alike h.next]
    refine .bind (adaptationLength_alike (h.drop _)) fun k k' hk => ?_
    subst hk
    refine .bindCounted (ih k (h.drop _)) fun names names' m hnames => ?_
    exact .ok ⟨.cons (peek_parent_alike h hname) hnames, rfl⟩
  | case3 c hend hsize hname hsemicolon ih =>
    rw [readParents.eq_def d, dif_neg (h.atEnd ▸ hend),
      if_neg (h.atIdentifier ▸ h.atKeyword _ ▸ hname), if_pos (h.atSymbol _ ▸ hsemicolon)]
    refine .bindCounted (ih h.next) fun names names' m hnames => ?_
    exact .ok ⟨hnames, rfl⟩
  | case4 c hend hsize hname hsemicolon hboundary =>
    rw [readParents, dif_neg (h.atEnd ▸ hend), if_neg (h.atIdentifier ▸ h.atKeyword _ ▸ hname),
      if_neg (h.atSymbol _ ▸ hsemicolon), if_pos (h.atKeyword _ ▸ hboundary)]
    exact .ok ⟨.nil, rfl⟩
  | case5 c hend hsize hname hsemicolon hboundary =>
    rw [readParents, dif_neg (h.atEnd ▸ hend), if_neg (h.atIdentifier ▸ h.atKeyword _ ▸ hname),
      if_neg (h.atSymbol _ ▸ hsemicolon), if_neg (h.atKeyword _ ▸ hboundary)]
    exact h.fail (.unexpectedInInheritance h.peek)

theorem readCreators_alike (h : Cursor.Alike L c d) :
    Attempt.Alike L (Counted (Forall₂ (Name.Alike L L.name))) (readCreators c)
      (readCreators d) := by
  fun_induction readCreators c generalizing d with
  | case1 c hname hsize hcomma hnext names n hrest ih =>
    obtain ⟨⟨names', n'⟩, hrest', hnames, hn⟩ := (ih (h.drop 2)).of_ok hrest
    rw [readCreators, dif_pos (h.atIdentifier ▸ hname), if_pos (h.next.atSymbol _ ▸ hcomma),
      if_pos ((h.drop 2).atIdentifier ▸ hnext), hrest']
    exact .ok ⟨.cons (h.peek_name hname) hnames, congrArg (2 + ·) hn⟩
  | case2 c hname hsize hcomma hnext e hrest ih =>
    obtain ⟨e', hrest', herror⟩ := (ih (h.drop 2)).of_error hrest
    rw [readCreators, dif_pos (h.atIdentifier ▸ hname), if_pos (h.next.atSymbol _ ▸ hcomma),
      if_pos ((h.drop 2).atIdentifier ▸ hnext), hrest']
    exact .error herror
  | case3 c hname hsize hcomma hnext =>
    rw [readCreators, dif_pos (h.atIdentifier ▸ hname), if_pos (h.next.atSymbol _ ▸ hcomma),
      if_neg ((h.drop 2).atIdentifier ▸ hnext)]
    exact (h.drop 2).fail (.plain rfl)
  | case4 c hname hsize hcomma =>
    rw [readCreators, dif_pos (h.atIdentifier ▸ hname), if_neg (h.next.atSymbol _ ▸ hcomma)]
    exact .ok ⟨.cons (h.peek_name hname) .nil, rfl⟩
  | case5 c hname =>
    rw [readCreators, dif_neg (h.atIdentifier ▸ hname)]
    exact .ok ⟨.nil, rfl⟩

theorem readNameClause_alike {R : Name → Name → Prop}
    {readList : Cursor → Except SyntaxError (List Name × Nat)}
    (hlist : ∀ {c d : Cursor}, Cursor.Alike L c d →
      Attempt.Alike L (Counted (Forall₂ R)) (readList c) (readList d))
    (h : Cursor.Alike L c d) :
    Attempt.Alike L (Taken.Alike (Forall₂ R)) (readNameClause readList c)
      (readNameClause readList d) := by
  unfold readNameClause
  dsimp only
  rw [(readClients_alike h.next).taken]
  refine .bindCounted (hlist (h.drop _)) fun names names' k hnames => ?_
  exact .ok ⟨hnames, rfl⟩

theorem readFeatureClause_alike (h : Cursor.Alike L c d) :
    Recovered.Alike (Clause.Alike L) L (readFeatureClause c) (readFeatureClause d) := by
  obtain ⟨hclients, hn⟩ := readClients_alike h.next
  have hfeatures := readFeatures_alike (h.drop (1 + (readClients d.next).2))
  have hcategory : Option.Rel L.remark
      ((c.last? (1 + (readClients d.next).2)).bind Item.category?)
      ((d.last? (1 + (readClients d.next).2)).bind Item.category?) := by
    have hlast := h.last? (1 + (readClients d.next).2)
    generalize c.last? _ = i? at hlast ⊢
    generalize d.last? _ = j? at hlast ⊢
    cases hlast with
    | none => exact .none
    | some hij => exact hij.category?
  unfold readFeatureClause
  dsimp only
  rw [hn]
  exact
    { value := ⟨rfl, h.peek_place, hcategory, hclients, hfeatures.value⟩
      taken := congrArg (1 + (readClients d.next).2 + ·) hfeatures.taken
      errors := hfeatures.errors
      resumed := hfeatures.resumed }

theorem readLooseFeatures_alike (h : Cursor.Alike L c d) :
    Recovered.Alike (Clause.Alike L) L (readLooseFeatures c) (readLooseFeatures d) := by
  obtain ⟨hvalue, htaken, herrors, hresumed⟩ := readFeatures_alike h
  exact ⟨⟨rfl, h.peek_place, .none, .nil, hvalue⟩, htaken, herrors, hresumed⟩

theorem readInvariant_alike (h : Cursor.Alike L c d) :
    Taken.Alike (fun x y => Invariant.Alike L x.1 y.1 ∧ Forall₂ (SyntaxError.Alike L) x.2 y.2)
      (readInvariant c) (readInvariant d) := by
  obtain ⟨hblock, htaken⟩ := readBlock_alike .classInvariant h
  unfold readInvariant
  generalize readBlock .classInvariant c = a at hblock htaken ⊢
  generalize readBlock .classInvariant d = b at hblock htaken ⊢
  have hfound := AssertionBlock.constructs_alike hblock
  exact ⟨⟨⟨hblock, agents_alike hfound, quantifiers_alike hfound⟩, faults_alike hfound⟩, htaken⟩

theorem conversionLength_alike (h : Cursor.Alike L c d) :
    conversionLength c = conversionLength d := by
  unfold conversionLength
  refine congrArg (1 + ·) (forall₂_takeWhile (fun i j hij => ?_) h.next.items).length_eq
  rw [L.isKeyword_eq hij.token]

theorem classNoteLength_alike (h : Cursor.Alike L c d) :
    classNoteLength c = classNoteLength d := by
  unfold classNoteLength
  refine congrArg (1 + ·) (forall₂_takeWhile (fun i j hij => ?_) h.next.items).length_eq
  dsimp only
  rw [hij.startsLine, L.isKeyword_eq hij.token]

inductive Part.Alike (L : Likeness) : Part → Part → Prop
  | parents {ns ms : List Name} (h : Forall₂ (Name.Alike L L.parent) ns ms) :
      Alike L (.parents ns) (.parents ms)
  | creators {ns ms : List Name} (h : Forall₂ (Name.Alike L L.name) ns ms) :
      Alike L (.creators ns) (.creators ms)
  | clause {a b : Clause} (h : Clause.Alike L a b) : Alike L (.clause a) (.clause b)
  | invariant {a b : Invariant} (h : Invariant.Alike L a b) :
      Alike L (.invariant a) (.invariant b)
  | skipped : Alike L .skipped .skipped

theorem readParts_of_nil (hc : c.items = []) : readParts c = ⟨[], 0, [], []⟩ := by
  rw [readParts]
  split
  · rfl
  · rename_i i is hi
    rw [hc] at hi
    cases hi

theorem recover_alike {e f : SyntaxError} (h : Cursor.Alike L c d) (n : Nat)
    (hef : SyntaxError.Alike L e f) :
    Recovered.Alike (Part.Alike L) L (recover c n e) (recover d n f) :=
  ⟨.skipped, rfl, .cons hef .nil, .cons (h.drop n).peek .nil⟩

theorem readPart_alike {i j : Item} {is js : List Item} (hij : Item.Alike L i j)
    (hs : Forall₂ (Item.Alike L) is js) (h : Cursor.Alike L c d) :
    Recovered.Alike (Part.Alike L) L (readPart i is c) (readPart j js d) := by
  unfold readPart
  simp only [L.isKeyword_eq hij.token, hij.startsDeclaration_eq, resumeLength_alike h.next,
    passLength_alike none hij hs, conversionLength_alike h, classNoteLength_alike h]
  split
  · have hclause := readNameClause_alike readParents_alike h
    generalize readNameClause readParents c = x at hclause ⊢
    generalize readNameClause readParents d = y at hclause ⊢
    cases hclause with
    | ok hnames => exact ⟨.parents hnames.value, hnames.taken, .nil, .nil⟩
    | error he => exact recover_alike h _ he
  split
  · have hclause := readNameClause_alike readCreators_alike h
    generalize readNameClause readCreators c = x at hclause ⊢
    generalize readNameClause readCreators d = y at hclause ⊢
    cases hclause with
    | ok hnames => exact ⟨.creators hnames.value, hnames.taken, .nil, .nil⟩
    | error he => exact recover_alike h _ he
  split
  · exact ⟨.skipped, rfl, .nil, .nil⟩
  split
  · obtain ⟨hvalue, htaken, herrors, hresumed⟩ := readFeatureClause_alike h
    exact ⟨.clause hvalue, htaken, herrors, hresumed⟩
  split
  · obtain ⟨⟨hinvariant, hfaults⟩, htaken⟩ := readInvariant_alike h
    generalize readInvariant c = x at hinvariant hfaults htaken ⊢
    generalize readInvariant d = y at hinvariant hfaults htaken ⊢
    exact ⟨.invariant hinvariant, htaken, hfaults, .nil⟩
  split
  · exact ⟨.skipped, rfl, .nil, .nil⟩
  split
  · obtain ⟨hvalue, htaken, herrors, hresumed⟩ := readLooseFeatures_alike h
    exact ⟨.clause hvalue, htaken, herrors, hresumed⟩
  · exact recover_alike h _ ⟨.unexpectedInClass hij.token, L.place_token hij.token⟩

/-- **The clauses of a class are read alike.** -/
theorem readParts_alike (h : Cursor.Alike L c d) :
    Recovered.Alike (Forall₂ (Part.Alike L)) L (readParts c) (readParts d) := by
  fun_induction readParts c generalizing d with
  | case1 c hc =>
    rw [readParts_of_nil (h.items_of_nil hc)]
    exact ⟨.nil, rfl, .nil, .nil⟩
  | case2 c i is hc hend =>
    obtain ⟨j, js, hij, -, hd⟩ := h.items_of_cons hc
    rw [readParts_of_end hd (L.isKeyword_eq hij.token _ ▸ hend)]
    exact ⟨.nil, rfl, .nil, .nil⟩
  | case3 c i is hc hend hsize htaken part =>
    rename_i ih
    obtain ⟨j, js, hij, hjs, hd⟩ := h.items_of_cons hc
    rw [L.isKeyword_eq hij.token, Bool.not_eq_true] at hend
    have hpart : Recovered.Alike (Part.Alike L) L part (readPart j js d) :=
      readPart_alike hij hjs h
    have hrest := ih (h.drop _)
    rw [readParts_of_cons hd hend, ← hpart.taken]
    exact
      { value := .cons hpart.value hrest.value
        taken := congrArg (part.taken + ·) hrest.taken
        errors := List.rel_append hpart.errors hrest.errors
        resumed := List.rel_append hpart.resumed hrest.resumed }

/-! ## 7. Class texts -/

structure Header.Alike (L : Likeness) (a b : Header) : Prop where
  name : Name.Alike L L.name a.name b.name
  kind : a.kind = b.kind
  frozen : a.frozen = b.frozen

theorem marks_alike {ts us : List Token} (h : Forall₂ L.token ts us) (kind : ClassKind) :
    ts.foldl ClassKind.marked kind = us.foldl ClassKind.marked kind := by
  induction h generalizing kind with
  | nil => rfl
  | cons htu _ ih =>
    rw [List.foldl_cons, List.foldl_cons, ClassKind.marked, ClassKind.marked, L.isKeyword_eq htu,
      L.isKeyword_eq htu, L.isKeyword_eq htu, ih]

theorem readHeader_alike (h : Cursor.Alike L c d) :
    Attempt.Alike L (Counted (Header.Alike L)) (readHeader c) (readHeader d) := by
  have hmarks : Forall₂ L.token
      ((c.items.takeWhile fun i => i.token.isKeyword classMarks).map Item.token)
      ((d.items.takeWhile fun i => i.token.isKeyword classMarks).map Item.token) :=
    List.rel_map (fun _ _ hij => hij.token)
      (forall₂_takeWhile (fun _ _ hij => L.isKeyword_eq hij.token _) h.items)
  unfold readHeader
  dsimp only
  generalize (c.items.takeWhile _).map Item.token = marks at hmarks ⊢
  generalize (d.items.takeWhile _).map Item.token = marks' at hmarks ⊢
  rw [hmarks.length_eq]
  have hkeyword := h.drop marks'.length
  have hfrozen : marks.any (·.isKeyword [.kwFrozen]) = marks'.any (·.isKeyword [.kwFrozen]) :=
    forall₂_any (fun _ _ htu => L.isKeyword_eq htu _) hmarks
  rw [hkeyword.atKeyword, hkeyword.next.atIdentifier, marks_alike hmarks, hfrozen]
  split
  · split
    · rename_i hname
      rw [← hkeyword.next.atIdentifier] at hname
      exact .ok ⟨⟨hkeyword.next.peek_name hname, rfl, rfl⟩, rfl⟩
    · exact hkeyword.next.fail (.expectedName _ hkeyword.next.peek)
  · exact hkeyword.fail (.expectedKeyword _ hkeyword.peek)

theorem genericNames_alike {is js : List Item} (h : Forall₂ (Item.Alike L) is js) (depth : Nat)
    (expects : Bool) :
    Forall₂ (Name.Alike L L.name) (genericNames depth expects is)
      (genericNames depth expects js) := by
  induction h generalizing depth expects with
  | nil => exact .nil
  | cons hij _ ih =>
    rw [genericNames, genericNames]
    simp only [L.isSymbol_eq hij.token, L.isKeyword_eq hij.token, ← L.isIdentifier_eq hij.token]
    repeat' split
    all_goals first | exact ih _ _ | skip
    rename_i hname
    rw [Bool.and_eq_true] at hname
    exact .cons ⟨L.name_token hij.token (by simpa [Token.isIdentifier] using hname.2),
      L.place_token hij.token⟩ (ih _ _)

theorem readGenerics_alike (h : Cursor.Alike L c d) :
    Counted (Forall₂ (Name.Alike L L.name)) (readGenerics c) (readGenerics d) := by
  unfold readGenerics
  rw [bracketLength_alike h]
  exact ⟨genericNames_alike (List.forall₂_take _ h.items) _ _, rfl⟩

theorem recoverHeader_alike (h : Cursor.Alike L c d) :
    Recovered.Alike (Header.Alike L) L (recoverHeader c) (recoverHeader d) := by
  have hheader := readHeader_alike h
  unfold recoverHeader
  rw [resumeLength_alike h]
  generalize readHeader c = x at hheader ⊢
  generalize readHeader d = y at hheader ⊢
  cases hheader with
  | ok hxy => exact ⟨hxy.value, hxy.taken, .nil, .nil⟩
  | error he =>
    have hfound := h.drop (d.resumeLength none)
    exact ⟨⟨⟨L.name_empty, hfound.peek_place⟩, rfl, rfl⟩, rfl, .cons he .nil,
      .cons hfound.peek .nil⟩

theorem closingErrors_alike (h : Cursor.Alike L c d) :
    Forall₂ (SyntaxError.Alike L) (closingErrors c) (closingErrors d) := by
  unfold closingErrors
  rw [h.atEnd, h.next.atEnd]
  split
  · exact .cons ⟨.plain rfl, h.peek_place⟩ .nil
  split
  · exact .nil
  · exact .cons ⟨.unexpectedAfterEnd h.next.peek, h.next.peek_place⟩ .nil

section Parts

variable {ps qs : List Part}

theorem parentNames_alike (h : Forall₂ (Part.Alike L) ps qs) :
    Forall₂ (Name.Alike L L.parent) (Part.parentNames ps) (Part.parentNames qs) := by
  refine List.rel_flatMap h fun p q hpq => ?_
  cases hpq with
  | parents hnames => exact hnames
  | _ => exact .nil

theorem creatorNames_alike (h : Forall₂ (Part.Alike L) ps qs) :
    Forall₂ (Name.Alike L L.name) (Part.creatorNames ps) (Part.creatorNames qs) := by
  refine List.rel_flatMap h fun p q hpq => ?_
  cases hpq with
  | creators hnames => exact hnames
  | _ => exact .nil

theorem clauses_alike (h : Forall₂ (Part.Alike L) ps qs) :
    Forall₂ (Clause.Alike L) (Part.clauses ps) (Part.clauses qs) := by
  refine List.rel_filterMap (fun p q hpq => ?_) h
  cases hpq with
  | clause hclause => exact .some hclause
  | _ => exact .none

theorem invariants_alike (h : Forall₂ (Part.Alike L) ps qs) :
    Forall₂ (Invariant.Alike L) (Part.invariants ps) (Part.invariants qs) := by
  refine List.rel_filterMap (fun p q hpq => ?_) h
  cases hpq with
  | invariant hinvariant => exact .some hinvariant
  | _ => exact .none

theorem merge?_alike {is js : List Invariant} (h : Forall₂ (Invariant.Alike L) is js) :
    Option.Rel (Invariant.Alike L) (Invariant.merge? is) (Invariant.merge? js) := by
  have hassertions := List.rel_flatMap h fun _ _ hij => hij.block.assertions
  have hagents := List.rel_flatMap h fun _ _ hij => hij.agents
  have hquantifiers := List.rel_flatMap h fun _ _ hij => hij.quantifiers
  cases h with
  | nil => exact .none
  | cons hij _ =>
    exact .some ⟨⟨hij.block.kind, hij.block.location, hassertions, hij.block.extended⟩, hagents,
      hquantifiers⟩

end Parts

theorem readClass_alike (h : Cursor.Alike L c d) :
    Recovered.Alike (ClassDecl.Alike L) L (readClass c) (readClass d) := by
  unfold readClass
  dsimp only
  rw [h.atKeyword, classNoteLength_alike h]
  generalize (if d.atKeyword [.kwNote] then classNoteLength d else 0) = n₀
  obtain ⟨hheader, hn₁, herrors, hresumed⟩ := recoverHeader_alike (h.drop n₀)
  rw [hn₁]
  generalize n₀ + (recoverHeader (d.drop n₀)).taken = n₁
  obtain ⟨hgenerics, hk⟩ := readGenerics_alike (h.drop n₁)
  rw [hk, obsoleteLength_alike (h.drop _)]
  generalize n₁ + _ + _ = n₂
  obtain ⟨hparts, hn₃, herrors', hresumed'⟩ := readParts_alike (h.drop n₂)
  rw [hn₃]
  exact
    { value :=
        { name := hheader.name
          kind := hheader.kind
          frozen := hheader.frozen
          generics := hgenerics
          parents := parentNames_alike hparts
          creators := creatorNames_alike hparts
          clauses := clauses_alike hparts
          invariant := merge?_alike (invariants_alike hparts) }
      taken := rfl
      errors := List.rel_append (List.rel_append herrors herrors') (closingErrors_alike (h.drop _))
      resumed := List.rel_append hresumed hresumed' }

/-- The items of alike tokens are alike: a comment belongs to the same item, and an item starts a
line where its counterpart does. -/
theorem itemsAfter_alike {ts us : List Token} {p q : Option Token} (h : Forall₂ L.token ts us)
    (hpq : Option.Rel L.token p q) :
    Forall₂ (Item.Alike L) (itemsAfter p ts) (itemsAfter q us) := by
  induction h generalizing p q with
  | nil => exact .nil
  | @cons t u ts us htu hrest ih =>
    have hstarts : p.all (·.line < t.line) = q.all (·.line < u.line) := by
      cases hpq with
      | none => rfl
      | some hpq => exact decide_eq_decide.mpr (L.line_lt_iff hpq htu)
    rw [itemsAfter, itemsAfter, ← L.kind_eq htu, ← hstarts]
    split
    · refine .cons ⟨htu, rfl, ?_⟩ (ih (.some htu))
      have htrivia := forall₂_takeWhile (fun v w hvw => L.isTrivia_eq hvw) hrest
      have hkind (v w : Token) (hvw : L.token v w) :
          (v.kind == .comment) = (w.kind == .comment) := by
        rw [L.kind_eq hvw]
      exact (forall₂_filter_and hkind htrivia).imp fun v w hvw => ⟨hvw.2, by simpa using hvw.1⟩
    · exact ih hpq

theorem tokenErrors_alike {ts us : List Token} (h : Forall₂ L.token ts us) :
    Forall₂ (SyntaxError.Alike L) (tokenErrors ts) (tokenErrors us) := by
  refine List.rel_filterMap (fun t u htu => ?_) h
  rw [L.fault_eq htu]
  cases u.fault with
  | none => exact .none
  | some fault => exact .some ⟨.plain rfl, L.place_token htu⟩

/-- Two readings of a text that agree up to a likeness. -/
structure Parsed.Alike (L : Likeness) (p q : Parsed) : Prop where
  classes : Forall₂ (ClassDecl.Alike L) p.tree.classes q.tree.classes
  errors : Forall₂ (SyntaxError.Alike L) p.errors q.errors
  resumed : Forall₂ L.token p.resumed q.resumed

/-- **Alike tokens are read alike.** -/
theorem parse_alike {s r : Source} (h : Forall₂ L.token s.lex.tokens r.lex.tokens) :
    Parsed.Alike L s.lex.parse r.lex.parse := by
  have heof : L.token s.eof r.eof := by
    have hlast := forall₂_getLast? h
    rw [Source.lex, Source.lex, List.getLast?_concat, List.getLast?_concat] at hlast
    cases hlast with
    | some heof => exact heof
  have hcursor : Cursor.Alike L (Cursor.ofLexed s.lex) (Cursor.ofLexed r.lex) :=
    ⟨itemsAfter_alike h .none, heof⟩
  obtain ⟨hclass, -, herrors, hresumed⟩ := readClass_alike hcursor
  exact ⟨.cons hclass .nil, List.rel_append (tokenErrors_alike h) herrors, hresumed⟩

end ContractLint
