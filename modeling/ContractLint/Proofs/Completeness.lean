/-
# The core grammar is read completely

Declarations have no terminator.  Whether an attribute ends, a routine starts or the next sibling
begins is decided by looking at the item that follows, against keyword lists that overlap.  So each
production is read right only in the right company, and the statement of each lemma says what the
company is: a form is followed by nothing, or by an item of one of the kinds listed for it
(`afterSignature`, `afterDeclaration`, `afterDeclarations`).  The lists are closed under the
grammar.  What a declaration starts with may follow a declaration, so lists of declarations are read
by induction (`readFeatures_form`); what a clause starts with may follow one, so are lists of
clauses (`readParts_clauses`).

* `readClass_form`: every form of a class is read without an error into the class it spells.
* `parse_core_class`: the same for the texts whose items have a form.
* `parse_sampleClass`: there is such a text.
-/
import ContractLint.Proofs.Routine
import ContractLint.Proofs.Tiling
import Mathlib

namespace ContractLint

/-! ## 1. Signatures -/

theorem DeclaredForm.length_items_pos (d : DeclaredForm) : 0 < d.items.length := by
  simp [items, Leaf.items]

theorem Commas.length_items_pos {α : Type} {itemsOf : α → List Item}
    (h : ∀ a, 0 < (itemsOf a).length) (ns : Commas α) : 0 < (ns.items itemsOf).length := by
  cases ns with
  | one a => exact h a
  | more a comma ns =>
    rw [items, List.length_append, List.length_cons]
    omega

/-- The name that a form introduces, and whether it is frozen. -/
def DeclaredForm.declared (d : DeclaredForm) : Name × Bool :=
  (d.name.name, d.frozen.isSome)

theorem readDeclared_form {rest : List Item} {ks : List Kind} (e : Token) (h : Heads ks rest)
    (hcomma : Kind.operator .comma ∉ ks) (halias : Kind.keyword .kwAlias ∉ ks) :
    ∀ ns : Commas DeclaredForm, readDeclared ⟨ns.items DeclaredForm.items ++ rest, e⟩ =
      .ok ⟨ns.toList.map DeclaredForm.declared, (ns.items DeclaredForm.items).length,
        ns.length_items_pos DeclaredForm.length_items_pos⟩
  | .one d => by
    have h₁ : (⟨rest, e⟩ : Cursor).atSymbol [.comma] = false := h.atSymbol (by simpa using hcomma)
    have h₂ : (⟨rest, e⟩ : Cursor).atKeyword [.kwAlias] = false :=
      h.atKeyword (by simpa using halias)
    rw [readDeclared]
    cases hf : d.frozen <;>
      simp [Commas.items, Commas.toList, DeclaredForm.items, DeclaredForm.declared, hf, optItems,
        Leaf.items, Leaf.name, Cursor.optKeyword, aliasLength, h₁, h₂, Cursor.drop]
  | .more d comma ns => by
    have ih := readDeclared_form e h hcomma halias ns
    rw [readDeclared]
    cases hf : d.frozen <;>
      simp [Commas.items, Commas.toList, DeclaredForm.items, DeclaredForm.declared, hf, optItems,
        Leaf.items, Leaf.name, Cursor.optKeyword, aliasLength, ih, Cursor.drop] <;>
      omega

theorem readResult_form {rest : List Item} (e : Token) (h : Heads afterType rest)
    (result : Option ResultForm) :
    readResult ⟨optItems ResultForm.items result ++ rest, e⟩ =
      .ok (result.map (·.type.type), (optItems ResultForm.items result).length) := by
  cases result with
  | none =>
    have hrest : (⟨rest, e⟩ : Cursor).atSymbol [.colon] = false := h.atSymbol (by decide)
    simp [optItems, readResult, hrest]
  | some r =>
    simp [optItems, ResultForm.items, readResult, readType_form r.type e h, bind, Except.bind, pure,
      Except.pure, Nat.add_comm 1]

/-- The kinds that a routine starts with. -/
def routineHeads : List Kind :=
  .keyword .kwRequire :: .keyword .kwLocal :: bodyHeads

/-- The kinds that may follow a list of declarations. -/
def afterDeclarations : List Kind :=
  [.keyword .kwFeature, .keyword .kwCreate, .keyword .kwInvariant, .keyword .kwEnd]

/-- The kinds that may follow a declaration: what the next one starts with, or what ends the
list. -/
def afterDeclaration : List Kind :=
  .identifier :: .keyword .kwFrozen :: afterDeclarations

/-- The kinds that may follow a signature: those of its routine, or those behind an attribute. -/
def afterSignature : List Kind :=
  routineHeads ++ afterDeclaration

/-- The signature that a form spells. -/
def SignatureForm.signature (s : SignatureForm) : Signature where
  names := s.names.toList.map DeclaredForm.declared
  parameters := s.parameters
  returnType := s.returnType

theorem SignatureForm.length_items_pos (s : SignatureForm) : 0 < s.items.length :=
  List.length_pos_iff.mpr s.items_ne_nil

theorem readSignature_form (s : SignatureForm) {rest : List Item} (e : Token)
    (h : Heads afterSignature rest) :
    readSignature ⟨s.items ++ rest, e⟩ =
      .ok ⟨s.signature, s.items.length, s.length_items_pos⟩ := by
  have hresult : Heads (.operator .colon :: afterSignature)
      (optItems ResultForm.items s.result ++ rest) :=
    Heads.opt (fun r => (Heads.leaf r.colon _).mono (by decide)) (h.mono (by decide))
  have harguments : Heads (.operator .openParen :: .operator .colon :: afterSignature)
      (optItems ArgumentsForm.items s.arguments ++ (optItems ResultForm.items s.result ++ rest)) :=
    Heads.opt (fun a => (Heads.leaf a.opening _).mono (by decide)) (hresult.mono (by decide))
  have hassigner : assignerLength ⟨rest, e⟩ = .ok 0 := by
    have hassign : (⟨rest, e⟩ : Cursor).atKeyword [.kwAssign] = false := h.atKeyword (by decide)
    simp [assignerLength, hassign]
  unfold readSignature
  simp only [SignatureForm.items, List.append_assoc, bind, Except.bind,
    readDeclared_form e harguments (by decide) (by decide), Cursor.drop_add, Cursor.drop_append,
    readArguments_form e hresult (by decide) s.arguments,
    readResult_form e (h.mono (by decide)) s.result, hassigner]
  simp [pure, Except.pure, SignatureForm.signature, SignatureForm.parameters,
    SignatureForm.returnType, Nat.add_assoc]

/-! ## 2. Declarations -/

theorem SignatureForm.exists_cons (s : SignatureForm) :
    ∃ i is, s.items = i :: is ∧ i.token.kind ∈ [.identifier, .keyword .kwFrozen] := by
  have hdeclared : ∀ d : DeclaredForm, ∃ i is, d.items = i :: is ∧
      i.token.kind ∈ [.identifier, .keyword .kwFrozen] := by
    intro d
    unfold DeclaredForm.items
    cases d.frozen with
    | none => exact ⟨_, _, rfl, by simp [d.name.kind_eq]⟩
    | some l => exact ⟨_, _, rfl, by simp [l.kind_eq]⟩
  unfold items
  cases s.names with
  | one d =>
    obtain ⟨i, is, hd, hi⟩ := hdeclared d
    exact ⟨i, _, by rw [Commas.items, hd]; rfl, hi⟩
  | more d comma ns =>
    obtain ⟨i, is, hd, hi⟩ := hdeclared d
    exact ⟨i, _, by rw [Commas.items, hd]; rfl, hi⟩

theorem SignatureForm.last?_append (s : SignatureForm) (rest : List Item) (e : Token) :
    (⟨s.items ++ rest, e⟩ : Cursor).last? s.items.length = some s.last := by
  rw [Cursor.last?_append, List.getLast?_eq_some_getLast s.items_ne_nil]
  rfl

theorem startsDeclaration_of_kind {i : Item}
    (h : i.token.kind ∈ [Kind.identifier, .keyword .kwFrozen]) : i.startsDeclaration = true := by
  have h : i.token.kind = .identifier ∨ i.token.kind = .keyword .kwFrozen := by simpa using h
  rcases h with h | h <;> simp [Item.startsDeclaration, Token.isIdentifier, Token.isKeyword, h]

theorem RoutineForm.heads (r : RoutineForm) (rest : List Item) :
    Heads routineHeads (r.items ++ rest) := by
  simp only [items, List.append_assoc]
  refine Heads.opt (fun b => (Heads.leaf b.keyword _).mono (by decide)) ?_
  refine Heads.opt (fun l => (Heads.leaf l.keyword _).mono (by decide)) ?_
  exact (r.body.heads _).mono (by decide)

theorem Word.atRoutine {w : Keyword} (l : Word w) (is : List Item) (e : Token)
    (hw : w ∈ routineKeywords) (honce : w ≠ .kwOnce) :
    (⟨l.item :: is, e⟩ : Cursor).atRoutine = true := by
  have honce : w ∉ [Keyword.kwOnce] := by simpa using honce
  simp [Cursor.atRoutine, hw, honce]

/-- A body starts a routine.  Again a `once` must not be part of a string. -/
theorem BodyForm.atRoutine (b : BodyForm) {rest : List Item} (e : Token)
    (h : Heads afterBody rest) : (⟨b.items ++ rest, e⟩ : Cursor).atRoutine = true := by
  cases b with
  | instructions keyword span => exact Word.atRoutine keyword _ e (by decide) (by decide)
  | once keyword span bare =>
    have hstring : (⟨span.items ++ rest, e⟩ : Cursor).atString = false :=
      Cursor.test_append (fun i hi => (bare i hi).1) (h.atString (by decide))
    simp [BodyForm.items, Cursor.atRoutine, hstring, routineKeywords]
  | deferred keyword => exact Word.atRoutine keyword _ e (by decide) (by decide)

theorem RoutineForm.atRoutine (r : RoutineForm) (rest : List Item) (e : Token) :
    (⟨r.items ++ rest, e⟩ : Cursor).atRoutine = true := by
  simp only [items, List.append_assoc]
  cases r.precondition with
  | some b => exact Word.atRoutine b.keyword _ e (by decide) (by decide)
  | none =>
    cases r.locals with
    | some l => exact Word.atRoutine l.keyword _ e (by decide) (by decide)
    | none => exact r.body.atRoutine e (r.heads_postcondition rest)

theorem DeclarationForm.length_items_pos (d : DeclarationForm) : 0 < d.items.length := by
  cases d with
  | stored s typed => exact s.length_items_pos
  | computed s r =>
    have h := s.length_items_pos
    simp only [items, List.length_append]
    omega

theorem SignatureForm.readFeatureBody_stored (s : SignatureForm) {rest : List Item} (e : Token)
    (hs : s.result.isSome = true) (h : Heads afterDeclaration rest) :
    readFeatureBody s.signature s.last ⟨rest, e⟩ = .ok (s.signature.attributes s.last, 0) := by
  have hobsolete : (⟨rest, e⟩ : Cursor).atKeyword [.kwObsolete] = false := h.atKeyword (by decide)
  have hnote : (⟨rest, e⟩ : Cursor).atKeyword [.kwNote] = false := h.atKeyword (by decide)
  have hroutine : (⟨rest, e⟩ : Cursor).atKeyword (routineKeywords ++ [.kwObsolete, .kwNote]) =
      false := h.atKeyword (by decide)
  have htype : s.signature.returnType.isNone = false := by
    simp [signature, returnType, hs]
  simp [readFeatureBody, obsoleteLength, noteLength, Cursor.atRoutine, hobsolete, hnote, hroutine,
    htype, bind, Except.bind, pure, Except.pure]

theorem SignatureForm.readFeatureBody_computed (s : SignatureForm) (r : RoutineForm)
    (rest : List Item) (e : Token) :
    readFeatureBody s.signature s.last ⟨r.items ++ rest, e⟩ =
      .ok (s.signature.routines s.last r.routine, r.items.length) := by
  have h := r.heads rest
  have hobsolete : (⟨r.items ++ rest, e⟩ : Cursor).atKeyword [.kwObsolete] = false :=
    h.atKeyword (by decide)
  have hnote : (⟨r.items ++ rest, e⟩ : Cursor).atKeyword [.kwNote] = false :=
    h.atKeyword (by decide)
  simp [readFeatureBody, obsoleteLength, noteLength, hobsolete, hnote, r.atRoutine,
    readRoutine_form, bind, Except.bind, pure, Except.pure]

/-- A declaration is read as its signature and what stands behind it. -/
theorem readDeclaration_of_body (s : SignatureForm) {i : Item} {tail : List Item} {e : Token}
    {d : Declaration} {k : Nat} (hi : i.startsDeclaration = true) (h : Heads afterSignature tail)
    (hbody : readFeatureBody s.signature s.last ⟨tail, e⟩ = .ok (d, k)) :
    readDeclaration i ⟨s.items ++ tail, e⟩ =
      .ok ⟨d, s.items.length + k, Nat.add_pos_left s.length_items_pos k⟩ := by
  have hequal : (⟨tail, e⟩ : Cursor).atSymbol [.equal] = false := h.atSymbol (by decide)
  have his : (⟨tail, e⟩ : Cursor).atKeyword [.kwIs] = false := h.atKeyword (by decide)
  unfold readDeclaration
  simp only [hi, readSignature_form s e h, bind, Except.bind, Cursor.drop_append, hequal,
    Cursor.optKeyword, his, Nat.add_zero, s.last?_append, Option.getD_some, hbody,
    Bool.not_true, Bool.false_eq_true, if_false]
  rfl

theorem readDeclaration_form (d : DeclarationForm) {i : Item} {rest : List Item} (e : Token)
    (hi : i.startsDeclaration = true) (h : Heads afterDeclaration rest) :
    readDeclaration i ⟨d.items ++ rest, e⟩ =
      .ok ⟨⟨d.features, []⟩, d.items.length, d.length_items_pos⟩ := by
  cases d with
  | stored s typed =>
    have hbody := s.readFeatureBody_stored e typed h
    have hd := readDeclaration_of_body s hi (h.mono (by decide)) hbody
    simpa [DeclarationForm.items, DeclarationForm.features, Signature.attributes,
      SignatureForm.signature, DeclaredForm.declared, Function.comp_def] using hd
  | computed s r =>
    have hbody := s.readFeatureBody_computed r rest e
    have hd := readDeclaration_of_body s hi ((r.heads rest).mono (by decide)) hbody
    have hagents := agents_eq_nil r.exists_quantifier
    have hfaults := faults_eq_nil r.exists_quantifier
    simpa [DeclarationForm.items, DeclarationForm.features, Signature.routines, hagents, hfaults,
      SignatureForm.signature, DeclaredForm.declared, Function.comp_def] using hd

theorem DeclarationForm.exists_cons (d : DeclarationForm) :
    ∃ i is, d.items = i :: is ∧ i.token.kind ∈ [.identifier, .keyword .kwFrozen] := by
  cases d with
  | stored s typed => exact s.exists_cons
  | computed s r =>
    obtain ⟨i, is, hs, hi⟩ := s.exists_cons
    exact ⟨i, is ++ r.items, by rw [items, hs]; rfl, hi⟩

theorem DeclarationForm.heads (d : DeclarationForm) (rest : List Item) :
    Heads [.identifier, .keyword .kwFrozen] (d.items ++ rest) := by
  obtain ⟨i, is, hd, hi⟩ := d.exists_cons
  rw [hd]
  exact Heads.leaf ⟨i, hi⟩ _

/-- **Declarations are read one by one**, each up to where the next one starts. -/
theorem readFeatures_form {rest : List Item} (e : Token) (h : Heads afterDeclarations rest) :
    ∀ ds : List DeclarationForm, readFeatures ⟨ds.flatMap DeclarationForm.items ++ rest, e⟩ =
      ⟨ds.flatMap DeclarationForm.features, (ds.flatMap DeclarationForm.items).length, [], []⟩
  | [] => by
    exact readFeatures_of_boundary fun i hi => h.isKeyword hi (by decide)
  | d :: ds => by
    have ih := readFeatures_form e h ds
    have hrest : Heads afterDeclaration (ds.flatMap DeclarationForm.items ++ rest) :=
      Heads.flatMap (fun d is => (d.heads is).mono (by decide)) (h.mono (by decide)) ds
    obtain ⟨i, is, hd, hi⟩ := d.exists_cons
    have hstarts := startsDeclaration_of_kind hi
    rw [List.flatMap_cons, List.append_assoc]
    rw [readFeatures_of_ok (by rw [hd]; rfl) (not_boundary_of_startsDeclaration hstarts)
      (readDeclaration_form d e hstarts hrest)]
    simp [ih]

/-! ## 3. Clauses -/

theorem enclosed_braces (b : BracesForm) (rest : List Item) (e : Token) :
    (⟨b.items ++ rest, e⟩ : Cursor).enclosed .closeBrace =
      (b.inner.map Item.token, b.items.length) := by
  have hclose : b.closing.item.token.isSymbol [.closeBrace] = true := by simp
  have hinner : (b.inner ++ b.closing.item :: rest).takeWhile
      (fun i => !i.token.isSymbol [.closeBrace]) = b.inner := by
    rw [List.takeWhile_append_of_pos fun i hi => by rw [b.flat i hi]; rfl,
      List.takeWhile_cons_of_neg (by simp [hclose]), List.append_nil]
  simp [Cursor.enclosed, BracesForm.items, hinner, Cursor.optSymbol, Nat.add_comm 1]

theorem readClients_form {rest : List Item} {ks : List Kind} (e : Token) (h : Heads ks rest)
    (hks : Kind.operator .openBrace ∉ ks) (clients : Option BracesForm) :
    readClients ⟨optItems BracesForm.items clients ++ rest, e⟩ =
      (clients.elim [] BracesForm.clients, (optItems BracesForm.items clients).length) := by
  cases clients with
  | none =>
    have hrest : (⟨rest, e⟩ : Cursor).atSymbol [.openBrace] = false :=
      h.atSymbol (by simpa using hks)
    simp [optItems, readClients, hrest]
  | some b =>
    have hopen : (⟨b.items ++ rest, e⟩ : Cursor).atSymbol [.openBrace] = true := by
      simp [BracesForm.items]
    simp [optItems, readClients, hopen, enclosed_braces, BracesForm.clients]

theorem readCreators_names {rest : List Item} (e : Token) (h : Heads afterDeclarations rest) :
    ∀ ns : Commas Identifier, readCreators ⟨ns.items Leaf.items ++ rest, e⟩ =
      .ok (ns.toList.map Leaf.name, (ns.items Leaf.items).length)
  | .one a => by
    have hrest : (⟨rest, e⟩ : Cursor).atSymbol [.comma] = false := h.atSymbol (by decide)
    rw [readCreators]
    simp [Commas.items, Commas.toList, Leaf.items, Leaf.name, hrest]
  | .more a comma ns => by
    have ih := readCreators_names e h ns
    have hnext := ns.atIdentifier_items rest e
    rw [readCreators]
    simp [Commas.items, Commas.toList, Leaf.items, Leaf.name, Cursor.drop, hnext, ih]
    omega

theorem readCreators_form {rest : List Item} (e : Token) (h : Heads afterDeclarations rest)
    (names : Option (Commas Identifier)) :
    readCreators ⟨optItems (Commas.items Leaf.items) names ++ rest, e⟩ =
      .ok (names.elim [] fun ns => ns.toList.map Leaf.name,
        (optItems (Commas.items Leaf.items) names).length) := by
  cases names with
  | none =>
    have hrest : (⟨rest, e⟩ : Cursor).atIdentifier = false := h.atIdentifier (by decide)
    rw [readCreators]
    simp [optItems, hrest]
  | some ns => exact readCreators_names e h ns

theorem readPart_create (keyword : Word .kwCreate) (clients : Option BracesForm)
    (names : Option (Commas Identifier)) (is : List Item) {rest : List Item} (e : Token)
    (h : Heads afterDeclarations rest) :
    readPart keyword.item is ⟨(ClauseForm.create keyword clients names).items ++ rest, e⟩ =
      ⟨(ClauseForm.create keyword clients names).part,
        (ClauseForm.create keyword clients names).items.length, [], []⟩ := by
  have hnames : Heads (.identifier :: afterDeclarations)
      (optItems (Commas.items Leaf.items) names ++ rest) :=
    Heads.opt (fun ns => (ns.heads rest).mono (by decide)) (h.mono (by decide))
  have hclause : readNameClause readCreators
      ⟨keyword.item :: (optItems BracesForm.items clients ++
        (optItems (Commas.items Leaf.items) names ++ rest)), e⟩ =
      .ok ⟨names.elim [] fun ns => ns.toList.map Leaf.name,
        1 + (optItems BracesForm.items clients).length +
          (optItems (Commas.items Leaf.items) names).length, by omega⟩ := by
    unfold readNameClause
    simp only [Cursor.next_cons, readClients_form e hnames (by decide) clients, Cursor.drop_add,
      Cursor.drop_one_cons, Cursor.drop_append, readCreators_form e h names, bind, Except.bind]
    rfl
  simp [readPart, ClauseForm.items, ClauseForm.headItems, ClauseForm.part, hclause]
  omega

theorem readPart_feature (keyword : Word .kwFeature) (clients : Option BracesForm)
    (ds : List DeclarationForm) (is : List Item) {rest : List Item} (e : Token)
    (h : Heads afterDeclarations rest) :
    readPart keyword.item is ⟨(ClauseForm.feature keyword clients ds).items ++ rest, e⟩ =
      ⟨(ClauseForm.feature keyword clients ds).part,
        (ClauseForm.feature keyword clients ds).items.length, [], []⟩ := by
  have hds : Heads afterDeclaration (ds.flatMap DeclarationForm.items ++ rest) :=
    Heads.flatMap (fun d is => (d.heads is).mono (by decide)) (h.mono (by decide)) ds
  have hlast : (⟨keyword.item :: (optItems BracesForm.items clients ++
      (ds.flatMap DeclarationForm.items ++ rest)), e⟩ : Cursor).last?
      (1 + (optItems BracesForm.items clients).length) =
      (ClauseForm.headItems keyword clients).getLast? := by
    have h := Cursor.last?_append (ClauseForm.headItems keyword clients)
      (ds.flatMap DeclarationForm.items ++ rest) e
    rwa [ClauseForm.headItems, List.length_cons, Nat.add_comm] at h
  simp [readPart, readFeatureClause, ClauseForm.items, ClauseForm.headItems, ClauseForm.part,
    readClients_form e hds (by decide) clients, Cursor.drop_add, readFeatures_form e h, hlast,
    Leaf.location]
  omega

theorem ClauseForm.heads (p : ClauseForm) (rest : List Item) :
    Heads afterDeclarations (p.items ++ rest) := by
  cases p with
  | create keyword clients names => exact (Heads.leaf keyword _).mono (by decide)
  | feature keyword clients ds => exact (Heads.leaf keyword _).mono (by decide)

theorem readPart_form (p : ClauseForm) {rest : List Item} (e : Token)
    (h : Heads afterDeclarations rest) :
    ∃ i is, p.items ++ rest = i :: is ∧ i.token.isKeyword [.kwEnd] = false ∧
      readPart i is ⟨p.items ++ rest, e⟩ = ⟨p.part, p.items.length, [], []⟩ := by
  cases p with
  | create keyword clients names =>
    exact ⟨_, _, rfl, by simp, readPart_create keyword clients names _ e h⟩
  | feature keyword clients ds =>
    exact ⟨_, _, rfl, by simp, readPart_feature keyword clients ds _ e h⟩

/-- Clauses are read one by one, in front of whatever comes after them. -/
theorem readParts_clauses {rest : List Item} {e : Token} {parts : List Part} {n : Nat}
    (h : Heads afterDeclarations rest) (hrest : readParts ⟨rest, e⟩ = ⟨parts, n, [], []⟩) :
    ∀ ps : List ClauseForm, readParts ⟨ps.flatMap ClauseForm.items ++ rest, e⟩ =
      ⟨ps.map ClauseForm.part ++ parts, (ps.flatMap ClauseForm.items).length + n, [], []⟩
  | [] => by
    rw [List.flatMap_nil, List.nil_append, hrest]
    simp
  | p :: ps => by
    have ih := readParts_clauses h hrest ps
    have hps : Heads afterDeclarations (ps.flatMap ClauseForm.items ++ rest) :=
      Heads.flatMap ClauseForm.heads h ps
    obtain ⟨i, is, hcons, hend, hpart⟩ := readPart_form p e hps
    rw [List.flatMap_cons, List.append_assoc, readParts_of_cons hcons hend, hpart]
    simp [ih, Nat.add_assoc]

/-- The invariant and the end of a class, as its last part. -/
theorem readParts_invariant (b : Option (BlockForm .classInvariant .kwInvariant))
    (closing : Word .kwEnd) (e : Token) :
    readParts ⟨optItems BlockForm.items b ++ closing.items, e⟩ =
      ⟨(b.map fun b => Part.invariant b.invariant).toList, (optItems BlockForm.items b).length, [], []⟩ := by
  have hend : readParts ⟨closing.items, e⟩ = ⟨[], 0, [], []⟩ :=
    readParts_of_end rfl (by simp)
  cases b with
  | none => simpa [optItems] using hend
  | some b =>
    have hclosing : Heads [.keyword .kwEnd] closing.items := Heads.leaf closing []
    have hblock := readBlock_form b e (hclosing.endsSpan (by decide) (by decide))
      (hclosing.atKeyword (by decide))
    have hpart : readPart b.keyword.item (b.span.items ++ closing.items)
        ⟨b.items ++ closing.items, e⟩ =
        ⟨.invariant b.invariant, b.items.length, [], []⟩ := by
      simp [readPart, readInvariant, hblock, BlockForm.invariant, agents_eq_nil b.exists_quantifier,
        faults_eq_nil b.exists_quantifier]
    have hcons : (⟨b.items ++ closing.items, e⟩ : Cursor).items =
      b.keyword.item :: (b.span.items ++ closing.items) := rfl
    have hparts := readParts_of_cons hcons (by simp)
    rw [hpart] at hparts
    simpa [optItems, hend] using hparts

/-! ## 4. Classes -/

theorem readHeader_form (g : ClassForm) (e : Token) :
    readHeader ⟨g.items, e⟩ =
      .ok (⟨g.decl.name, g.decl.kind, g.decl.frozen⟩, g.marks.length + 2) := by
  have hkeyword : g.keyword.item.token.isKeyword classMarks = false := by simp [classMarks]
  have hleaves : ∀ i ∈ g.marks.map Leaf.item, i.token.isKeyword classMarks = true := by
    intro i hi
    obtain ⟨l, -, rfl⟩ := List.mem_map.mp hi
    exact (Heads.leaf l []).isKeyword rfl fun _ hk => hk
  have hmarks : g.items.takeWhile (fun i => i.token.isKeyword classMarks) =
      g.marks.map Leaf.item := by
    rw [ClassForm.items, List.takeWhile_append_of_pos hleaves]
    simp [hkeyword]
  have hdrop := Cursor.drop_append (g.marks.map Leaf.item)
    (g.keyword.item :: g.name.item :: g.bodyItems) e
  rw [List.length_map, ← ClassForm.items] at hdrop
  simp [readHeader, hmarks, hdrop, ClassForm.decl, Leaf.name, Function.comp_def]

/-- Behind a header that nothing prolongs, a class is its parts. -/
theorem readClass_of_header {c : Cursor} {h : Header} {n : Nat} {ks : List Kind}
    (hnote : c.atKeyword [.kwNote] = false) (hheader : readHeader c = .ok (h, n))
    (hrest : Heads ks (c.drop n).items) (hbracket : Kind.operator .openBracket ∉ ks)
    (hobsolete : Kind.keyword .kwObsolete ∉ ks) :
    let parts := readParts (c.drop n)
    readClass c =
      { value :=
          { name := h.name
            kind := h.kind
            frozen := h.frozen
            generics := []
            parents := Part.parentNames parts.value
            creators := Part.creatorNames parts.value
            clauses := Part.clauses parts.value
            invariant := Invariant.merge? (Part.invariants parts.value) }
        taken := n + parts.taken
        errors := parts.errors ++ closingErrors (c.drop (n + parts.taken))
        resumed := parts.resumed } := by
  have h₁ : (c.drop n).atSymbol [.openBracket] = false := hrest.atSymbol (by simpa using hbracket)
  have h₂ : (c.drop n).atKeyword [.kwObsolete] = false :=
    hrest.atKeyword (by simpa using hobsolete)
  simp [readClass, hnote, recoverHeader, hheader, readGenerics, Cursor.bracketLength, h₁,
    genericNames, obsoleteLength, h₂]

/-- Clauses of the core grammar add neither parents nor an invariant. -/
theorem parts_clauses : ∀ ps : List ClauseForm,
    Part.parentNames (ps.map ClauseForm.part) = [] ∧ Part.invariants (ps.map ClauseForm.part) = []
  | [] => ⟨rfl, rfl⟩
  | .create .. :: ps => parts_clauses ps
  | .feature .. :: ps => parts_clauses ps

/-- The parts of a class that a form spells. -/
def ClassForm.parts (g : ClassForm) : List Part :=
  g.clauses.map ClauseForm.part ++
    (g.invariant.map fun b => Part.invariant b.invariant).toList

/-- What the parts of a form add up to is what the form says. -/
theorem ClassForm.decl_parts (g : ClassForm) :
    Part.parentNames g.parts = g.decl.parents ∧ Part.creatorNames g.parts = g.decl.creators ∧
      Part.clauses g.parts = g.decl.clauses ∧
      Invariant.merge? (Part.invariants g.parts) = g.decl.invariant := by
  obtain ⟨hparents, hinvariants⟩ := parts_clauses g.clauses
  unfold Part.parentNames at hparents
  unfold Part.invariants at hinvariants
  simp only [parts, decl, Part.parentNames, Part.creatorNames, Part.clauses, Part.invariants,
    List.flatMap_append, List.filterMap_append, hparents, hinvariants, List.nil_append]
  cases g.invariant <;> simp [Invariant.merge?]

/-- The number of items between the header of a class and its `end`. -/
def ClassForm.partsLength (g : ClassForm) : Nat :=
  (g.clauses.flatMap ClauseForm.items).length + (optItems BlockForm.items g.invariant).length

theorem ClassForm.heads_invariant (g : ClassForm) :
    Heads afterDeclarations (optItems BlockForm.items g.invariant ++ g.closing.items) :=
  Heads.opt (fun b => (Heads.leaf b.keyword _).mono (by decide))
    ((Heads.leaf g.closing []).mono (by decide))

theorem readParts_form (g : ClassForm) (e : Token) :
    readParts ⟨g.bodyItems, e⟩ = ⟨g.parts, g.partsLength, [], []⟩ :=
  readParts_clauses g.heads_invariant (readParts_invariant g.invariant g.closing e) g.clauses

theorem ClassForm.heads_bodyItems (g : ClassForm) : Heads afterDeclarations g.bodyItems :=
  Heads.flatMap ClauseForm.heads g.heads_invariant g.clauses

theorem ClassForm.heads_items (g : ClassForm) :
    Heads (.keyword .kwClass :: classMarks.map Kind.keyword) g.items := by
  unfold items
  cases g.marks with
  | nil => exact (Heads.leaf g.keyword _).mono (by decide)
  | cons m ms => exact (Heads.leaf m _).mono (by decide)

/-- **Every class of the core grammar is read as it is written**: without an error, without
resuming anywhere, and into the class that it spells. -/
theorem readClass_form (g : ClassForm) (e : Token) :
    (readClass ⟨g.items, e⟩).value = g.decl ∧ (readClass ⟨g.items, e⟩).errors = [] ∧
      (readClass ⟨g.items, e⟩).resumed = [] := by
  have hdrop : (⟨g.items, e⟩ : Cursor).drop (g.marks.length + 2) = ⟨g.bodyItems, e⟩ := by
    simp [ClassForm.items, Cursor.drop, List.drop_append]
  -- Behind the parts only the `end` of the class is left.
  have hend : (⟨g.items, e⟩ : Cursor).drop (g.marks.length + 2 + g.partsLength) =
      ⟨g.closing.items, e⟩ := by
    rw [Cursor.drop_add, hdrop, ClassForm.partsLength, Cursor.drop_add, ClassForm.bodyItems,
      Cursor.drop_append, Cursor.drop_append]
  have hclosing : closingErrors ⟨g.closing.items, e⟩ = [] := rfl
  have hclass := readClass_of_header (g.heads_items.atKeyword (by decide)) (readHeader_form g e)
    (by rw [hdrop]; exact g.heads_bodyItems) (by decide) (by decide)
  obtain ⟨hparents, hcreators, hclauses, hinvariant⟩ := g.decl_parts
  rw [hdrop, readParts_form] at hclass
  simp only [hend, hclosing, List.append_nil, hparents, hcreators, hclauses, hinvariant] at hclass
  rw [hclass]
  exact ⟨rfl, rfl, rfl⟩

/-! ## 5. Texts -/

/-- The scan finds no fault with comments and indentation. -/
theorem fault_of_mem_pieces {fresh : Bool} {loc : Location} {cs : List Char} :
    ∀ p ∈ pieces fresh loc cs, ∀ t ∈ p.token, t.isTrivia = true → t.fault = none := by
  fun_induction pieces fresh loc cs with
  | case1 => exact fun p hp => absurd hp List.not_mem_nil
  | case2 loc c rest indent after blank ih =>
    intro p hp
    rcases List.mem_cons.mp hp with rfl | hp
    · intro t ht _
      unfold Piece.ofIndent at ht
      dsimp only at ht
      split at ht
      · cases ht
      · rw [← Option.some.inj ht]
    · exact ih p hp
  | case3 loc rest ih => exact ih
  | case4 loc c rest _ _ ih => exact ih
  | case5 loc c rest _ _ x text ih =>
    intro p hp
    rcases List.mem_cons.mp hp with rfl | hp
    · intro t ht htrivia
      rw [← Option.some.inj ht] at htrivia ⊢
      rcases lexeme_comment_or loc.offset c rest with ⟨-, h⟩ | ⟨h, -⟩
      · exact h
      · rw [show Kind.isTrivia _ = true from htrivia] at h
        cases h
    · exact ih p hp

theorem fault_of_isTrivia {s : Source} {t : Token} (ht : t ∈ s.lex.tokens)
    (htrivia : t.isTrivia = true) : t.fault = none := by
  rcases List.mem_append.mp ht with ht | ht
  · obtain ⟨p, hp, hpt⟩ := List.mem_filterMap.mp ht
    exact fault_of_mem_pieces p hp t hpt htrivia
  · rw [List.mem_singleton.mp ht]
    rfl

/-- A text has no faulty token if it has no faulty significant one. -/
theorem tokenErrors_eq_nil {s : Source} (h : ∀ t ∈ s.lex.significant, t.fault = none) :
    tokenErrors s.lex.tokens = [] := by
  refine List.filterMap_eq_nil_iff.mpr fun t ht => ?_
  have hfault : t.fault = none := by
    cases htrivia : t.isTrivia with
    | true => exact fault_of_isTrivia ht htrivia
    | false => exact h t (List.mem_filter.mpr ⟨ht, by rw [htrivia]; rfl⟩)
  rw [hfault]
  rfl

/-- **The parser is complete on the core grammar.**  Whenever the items of a text spell a class of
the core grammar and no significant token is faulty, there is nothing to report: no diagnostic, no
resumption, and the tree is the class that the text spells.  An invalid character is a faulty token,
so such a text has none. -/
theorem parse_core_class (raw path : String) (g : ClassForm)
    (hspell : (Cursor.ofLexed (Source.ofString raw path).lex).items = g.items)
    (hclean : ∀ t ∈ (Source.ofString raw path).lex.significant, t.fault = none) :
    let p := (Source.ofString raw path).lex.parse
    p.diagnostics = [] ∧ p.recoveries = 0 ∧ p.tree = ⟨path, [g.decl]⟩ := by
  intro p
  have hcursor : Cursor.ofLexed (Source.ofString raw path).lex =
      ⟨g.items, (Source.ofString raw path).eof⟩ := by
    rw [← hspell]
    rfl
  obtain ⟨hvalue, herrors, hresumed⟩ := readClass_form g (Source.ofString raw path).eof
  rw [← hcursor] at hvalue herrors hresumed
  have hp : p.errors = [] := List.append_eq_nil_iff.mpr ⟨tokenErrors_eq_nil hclean, herrors⟩
  refine ⟨?_, ?_, ?_⟩
  · rw [Parsed.diagnostics, hp]
    rfl
  · exact congrArg List.length hresumed
  · exact congrArg (fun d => (⟨path, [d]⟩ : Tree)) hvalue

/-! ## 6. A text of the core grammar -/

/-- An item on the only line of a text. -/
def sampleItem (kind : Kind) (text : String) (offset : Int) : Item where
  token := { kind, text, location := ⟨1, offset + 1, offset⟩ }
  startsLine := offset == 0
  comments := []

def sampleLeaf (kind : Kind) (text : String) (offset : Int) : Leaf [kind] :=
  ⟨sampleItem kind text offset, List.mem_singleton_self kind⟩

def sampleType (offset : Int) : TypeForm where
  mark := .unmarked
  separate := none
  frozen := none
  core := .named ⟨sampleItem .identifier "INTEGER" offset, List.mem_cons_self⟩ none

/-- A class with a creation procedure, an attribute and an invariant. -/
def sampleClass : ClassForm where
  marks := []
  keyword := sampleLeaf _ "class" 0
  name := sampleLeaf _ "A" 6
  clauses :=
    [.create (sampleLeaf _ "create" 8) none (some (.one (sampleLeaf _ "put" 15))),
     .feature (sampleLeaf _ "feature" 19) none
      [.computed
        { names := .one ⟨none, sampleLeaf _ "put" 27⟩
          arguments := some
            { opening := sampleLeaf _ "(" 31
              groups := [⟨.one (sampleLeaf _ "n" 32), sampleLeaf _ ":" 33, sampleType 35, none⟩]
              closing := sampleLeaf _ ")" 42 }
          result := none }
        { precondition := none
          locals := none
          body := .instructions (sampleLeaf _ "do" 44)
            { items := [sampleItem .identifier "x" 47, sampleItem (.operator .assign) ":=" 49,
                sampleItem .identifier "n" 52]
              balanced := by decide
              avoids := by decide
              plain := by decide }
          postcondition := none
          rescue := none
          closing := sampleLeaf _ "end" 54 },
       .stored
        { names := .one ⟨none, sampleLeaf _ "x" 58⟩
          arguments := none
          result := some ⟨sampleLeaf _ ":" 59, sampleType 61⟩ } rfl]]
  invariant := some
    { keyword := sampleLeaf _ "invariant" 69
      span :=
        { items := [sampleItem .identifier "x" 79, sampleItem (.operator .greater) ">" 81,
            sampleItem .number "0" 83]
          balanced := by decide
          avoids := by decide
          plain := by decide }
      fresh := by decide }
  closing := sampleLeaf _ "end" 85

def sampleText : String :=
  "class A create put feature put (n: INTEGER) do x := n end x: INTEGER invariant x > 0 end"

theorem parse_sampleClass :
    let p := (Source.ofString sampleText "a.e").lex.parse
    p.diagnostics = [] ∧ p.recoveries = 0 ∧ p.tree = ⟨"a.e", [sampleClass.decl]⟩ := by
  obtain ⟨hspell, hclean⟩ :
      (Cursor.ofLexed (Source.ofString sampleText "a.e").lex).items = sampleClass.items ∧
        (Source.ofString sampleText "a.e").lex.significant.all (·.fault.isNone) = true := by
    cbv
  exact parse_core_class sampleText "a.e" sampleClass hspell fun t ht =>
    Option.isNone_iff_eq_none.mp (List.all_eq_true.mp hclean t ht)

end ContractLint
