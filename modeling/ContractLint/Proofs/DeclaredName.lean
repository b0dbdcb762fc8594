/-
# Declared names

What the naming rule says of a name rests on what the characters of a name can be, and a finding
about a name without characters would propose that very name.  Nothing in the tree excludes such a
name: a `Name` holds any text, and a class that could not be read does get an empty one.

All other names come from identifiers.  A production copies a name only where an identifier is at
the cursor, so what holds of the identifiers that are left (`Cursor.Names`) holds of the names that
it returns.  The proofs follow the productions that declare names: groups of entities, declarations,
routines with the cursors of their quantifiers, and formal generics.

* `names_readClass`: what holds of all identifiers of a class text holds of the names it declares;
* `Source.isName_of_declared`: the declared names of a text are words that are no keywords.
-/
import ContractLint.Proofs.Quantification
import ContractLint.Proofs.SourceOrder
import ContractLint.Proofs.Spelling
import ContractLint.Rule.Naming

namespace ContractLint

variable {P : Name → Prop} {c : Cursor}

/-- `P` holds of every identifier that is left. -/
def Cursor.Names (P : Name → Prop) (c : Cursor) : Prop :=
  ∀ t ∈ c.tokens, t.isIdentifier = true → P t.name

namespace Cursor.Names

theorem drop (h : c.Names P) (n : Nat) : (c.drop n).Names P :=
  fun t ht => h t (c.tokens_drop n ht)

theorem peek (h : c.Names P) (hname : c.atIdentifier = true) : P c.peek.name := by
  unfold atIdentifier test at hname
  cases hi : c.items with
  | nil => simp [hi] at hname
  | cons i is =>
    have hpeek : c.peek = i.token := by simp [Cursor.peek, hi]
    rw [hpeek]
    refine h i.token ?_ (by simpa [hi] using hname)
    rw [tokens, hi]
    exact List.mem_cons_self

end Cursor.Names

/-! ## 1. Entities -/

theorem names_readNames {role : NameRole} {names : List Name} (h : readNames role c = .ok names)
    (hc : c.Names P) : ∀ n ∈ names, P n := by
  fun_induction readNames role c generalizing names with
  | case1 c hname hpos hcomma rest hrest ih =>
    cases h
    exact List.forall_mem_cons.mpr ⟨hc.peek hname, ih hrest (hc.drop 2)⟩
  | case2 => cases h
  | case3 c hname hpos hcomma =>
    cases h
    exact List.forall_mem_singleton.mpr (hc.peek hname)
  | case4 => cases h

theorem names_readEntities {role : NameRole} {group : Taken (List Entity)}
    (h : readEntities role c = .ok group) (hc : c.Names P) : ∀ e ∈ group.value, P e.name := by
  obtain ⟨names, hnames, h⟩ := exists_of_bind_eq_ok h
  have hP := names_readNames hnames hc
  dsimp only at h
  split at h
  · obtain ⟨⟨type, k⟩, -, h⟩ := exists_of_bind_eq_ok h
    cases h
    exact List.forall_mem_map.mpr hP
  · cases h

theorem names_readArgumentGroups {entities : List Entity} {n : Nat}
    (h : readArgumentGroups c = .ok (entities, n)) (hc : c.Names P) : ∀ e ∈ entities, P e.name := by
  fun_induction readArgumentGroups c generalizing entities n with
  | case1 =>
    cases h
    exact List.forall_mem_nil _
  | case2 c hclose hname hpos ih =>
    obtain ⟨group, hgroup, h⟩ := exists_of_bind_eq_ok h
    obtain ⟨⟨rest, k⟩, hrest, h⟩ := exists_of_bind_eq_ok h
    cases h
    exact List.forall_mem_append.mpr
      ⟨names_readEntities hgroup hc, ih group hrest (hc.drop _)⟩
  | case3 => cases h

theorem names_readArguments {entities : List Entity} {n : Nat}
    (h : readArguments c = .ok (entities, n)) (hc : c.Names P) : ∀ e ∈ entities, P e.name := by
  unfold readArguments at h
  split at h
  · obtain ⟨⟨groups, k⟩, hgroups, h⟩ := exists_of_bind_eq_ok h
    cases h
    exact names_readArgumentGroups hgroups (hc.drop 1)
  · cases h
    exact List.forall_mem_nil _

theorem names_readLocalGroups {entities : List Entity} {n : Nat}
    (h : readLocalGroups c = .ok (entities, n)) (hc : c.Names P) : ∀ e ∈ entities, P e.name := by
  fun_induction readLocalGroups c generalizing entities n with
  | case1 c hname hpos ih =>
    obtain ⟨group, hgroup, h⟩ := exists_of_bind_eq_ok h
    obtain ⟨⟨rest, k⟩, hrest, h⟩ := exists_of_bind_eq_ok h
    cases h
    exact List.forall_mem_append.mpr
      ⟨names_readEntities hgroup hc, ih group hrest (hc.drop _)⟩
  | case2 =>
    cases h
    exact List.forall_mem_nil _

theorem names_readLocals {entities : List Entity} {n : Nat}
    (h : readLocals c = .ok (entities, n)) (hc : c.Names P) : ∀ e ∈ entities, P e.name := by
  unfold readLocals at h
  split at h
  · obtain ⟨⟨groups, k⟩, hgroups, h⟩ := exists_of_bind_eq_ok h
    cases h
    exact names_readLocalGroups hgroups (hc.drop 1)
  · cases h
    exact List.forall_mem_nil _

/-! ## 2. Cursors of quantifiers -/

/-- The cursor of a quantifier is an identifier of the span in which the quantifier is found. -/
theorem names_constructs {ts : List Token} (h : ∀ t ∈ ts, t.isIdentifier = true → P t.name) :
    ∀ q ∈ Construct.quantifiers (constructs ts), ∀ n ∈ q.cursor, P n := by
  fun_induction constructs ts with
  | case1 => exact List.forall_mem_nil _
  | case2 t rest hagent reading =>
    rename_i ih
    have ih := ih fun u hu => h u (List.mem_cons_of_mem t (List.mem_of_mem_drop hu))
    cases hr : reading.1 with
    | ok a => simpa [Construct.quantifiers, Construct.ofAgent, hr] using ih
    | error e => simpa [Construct.quantifiers, Construct.ofAgent, hr] using ih
  | case3 t rest hagent q hq ih =>
    have ih := ih fun u hu => h u (List.mem_cons_of_mem t hu)
    refine List.forall_mem_cons.mpr ⟨fun n hn => ?_, ih⟩
    obtain ⟨u, hu, rfl⟩ := Option.map_eq_some_iff.mp hn
    obtain ⟨hu, hname⟩ := Option.filter_eq_some_iff.mp hu
    exact h u (List.mem_cons_of_mem t (List.mem_of_head? hu)) hname
  | case4 t rest hagent hq ih => exact ih fun u hu => h u (List.mem_cons_of_mem t hu)

theorem names_spans {spans : List (List Token)} (hspans : spans.flatten ⊆ c.tokens)
    (hc : c.Names P) :
    ∀ q ∈ Construct.quantifiers (spans.flatMap constructs), ∀ n ∈ q.cursor, P n := by
  rw [Construct.quantifiers_flatMap]
  intro q hq
  obtain ⟨span, hspan, hq⟩ := List.mem_flatMap.mp hq
  exact names_constructs
    (fun t ht => hc t (hspans (List.mem_flatten.mpr ⟨span, hspan, ht⟩))) q hq

/-! ## 3. Features -/

theorem names_readDeclared {names : Taken (List (Name × Bool))} (h : readDeclared c = .ok names)
    (hc : c.Names P) : ∀ n ∈ names.value, P n.1 := by
  fun_induction readDeclared c generalizing names with
  | case1 => cases h
  | case2 c frozen name hname hpos k hk declared hcomma rest =>
    rename_i hrest ih
    cases h
    exact List.forall_mem_cons.mpr ⟨(hc.drop frozen).peek hname, ih hrest (hc.drop _)⟩
  | case3 => cases h
  | case4 c frozen name hname hpos k hk =>
    cases h
    exact List.forall_mem_singleton.mpr ((hc.drop frozen).peek hname)
  | case5 => cases h

theorem names_readSignature {signature : Taken Signature} (h : readSignature c = .ok signature)
    (hc : c.Names P) :
    (∀ n ∈ signature.value.names, P n.1) ∧ ∀ e ∈ signature.value.parameters, P e.name := by
  obtain ⟨names, hnames, h⟩ := exists_of_bind_eq_ok h
  obtain ⟨⟨parameters, n₁⟩, hparameters, h⟩ := exists_of_bind_eq_ok h
  obtain ⟨⟨returnType, n₂⟩, -, h⟩ := exists_of_bind_eq_ok h
  obtain ⟨n₃, -, h⟩ := exists_of_bind_eq_ok h
  cases h
  exact ⟨names_readDeclared hnames hc, names_readArguments hparameters (hc.drop _)⟩

/-- The locals of a feature are those of its routine. -/
theorem names_locals {first : Item} {d : Taken Declaration} (h : readDeclaration first c = .ok d)
    (hc : c.Names P) : ∀ f ∈ d.value.features,
      P f.name ∧ (∀ e ∈ f.parameters, P e.name) ∧ ∀ e ∈ f.locals, P e.name := by
  obtain ⟨signature, hsignature, last, hd | hd | ⟨n, routine, hroutine, hd⟩⟩ :=
    readDeclaration_cases h
  all_goals
    obtain ⟨hnames, hparameters⟩ := names_readSignature hsignature hc
    rw [hd]
    refine List.forall_mem_map.mpr fun name hname => ⟨hnames name hname, ?_⟩
  · exact ⟨List.forall_mem_nil _, List.forall_mem_nil _⟩
  · exact ⟨hparameters, List.forall_mem_nil _⟩
  · obtain ⟨n₁, n₂, n₄, n₅, body, -, hlocals, -⟩ := readRoutine_cases hroutine
    exact ⟨hparameters, names_readLocals hlocals ((hc.drop n).drop n₁)⟩

theorem names_cursors {qs : List Quantifier} (h : ∀ q ∈ qs, ∀ n ∈ q.cursor, P n) :
    ∀ d ∈ Naming.cursors qs, P d.name := by
  intro d hd
  obtain ⟨q, hq, hsome⟩ := List.mem_filterMap.mp hd
  obtain ⟨n, hn, rfl⟩ := Option.map_eq_some_iff.mp hsome
  exact h q hq n hn

/-- **The names that a feature declares are identifiers of its declaration.** -/
theorem names_readDeclaration {first : Item} {d : Taken Declaration}
    (h : readDeclaration first c = .ok d) (hc : c.Names P) {f : Feature}
    (hf : f ∈ d.value.features) : ∀ n ∈ Naming.ofFeature f, P n.name := by
  obtain ⟨hname, hparameters, hlocals⟩ := names_locals h hc f hf
  have hsearched := searched_readDeclaration h hf
  have hcursors := names_spans hsearched.pieces.subset hc
  rw [← hsearched.quantifiers] at hcursors
  refine List.forall_mem_append.mpr ⟨List.forall_mem_append.mpr
    ⟨List.forall_mem_cons.mpr ⟨hname, List.forall_mem_map.mpr hparameters⟩,
      List.forall_mem_map.mpr hlocals⟩, names_cursors hcursors⟩

/-! ## 4. Classes -/

theorem names_genericNames (depth : Nat) (expects : Bool) (is : List Item)
    (h : ∀ i ∈ is, i.token.isIdentifier = true → P i.token.name) :
    ∀ n ∈ genericNames depth expects is, P n := by
  induction is generalizing depth expects with
  | nil => exact List.forall_mem_nil _
  | cons i is ih =>
    obtain ⟨hi, his⟩ := List.forall_mem_cons.mp h
    have ih := fun depth expects => ih depth expects his
    rw [genericNames]
    dsimp only
    split
    · exact ih _ _
    split
    · exact ih _ _
    split
    · split
      · exact ih _ _
      split
      · rename_i hname
        exact List.forall_mem_cons.mpr ⟨hi (Bool.and_eq_true_iff.mp hname).2, ih _ _⟩
      · exact ih _ _
    · exact ih _ _

theorem names_readGenerics (hc : c.Names P) : ∀ n ∈ (readGenerics c).1, P n := by
  refine names_genericNames 0 true _ fun i hi => ?_
  exact hc i.token (List.mem_map_of_mem (List.mem_of_mem_take hi))

/-- A class without a name got none from the text. -/
theorem names_recoverHeader (hc : c.Names P) (h : (recoverHeader c).value.name.text ≠ "") :
    P (recoverHeader c).value.name := by
  unfold recoverHeader at h ⊢
  split
  · rename_i header n hheader
    unfold readHeader at hheader
    dsimp only at hheader
    split at hheader
    · split at hheader
      · rename_i hname
        cases hheader
        exact ((hc.drop _).drop 1).peek hname
      · cases hheader
    · cases hheader
  · rename_i e he
    rw [he] at h
    exact absurd rfl h

theorem names_readInvariant (hc : c.Names P) :
    ∀ q ∈ (readInvariant c).value.1.quantifiers, ∀ n ∈ q.cursor, P n := by
  rw [searched_readInvariant c]
  refine names_spans (fun t ht => ?_) hc
  obtain ⟨span, hspan, ht⟩ := List.mem_flatten.mp ht
  obtain ⟨a, ha, rfl⟩ := List.mem_map.mp hspan
  exact c.tokens_drop _ (Cursor.take_subset _ _ (mem_of_mem_assertions ha ht))

/-- **What holds of every identifier of a class text holds of every name that it declares.** -/
theorem names_readClass (hc : c.Names P) : ∀ n ∈ Naming.ofClass (readClass c).value, P n.name := by
  obtain ⟨is, hinvariant, ps, hps, -, his⟩ := portioned_readClass c
  refine List.forall_mem_append.mpr ⟨List.forall_mem_append.mpr
    ⟨List.forall_mem_append.mpr ⟨?_, ?_⟩, ?_⟩, ?_⟩
  · split
    · exact List.forall_mem_nil _
    · rename_i htext
      exact List.forall_mem_singleton.mpr
        (names_recoverHeader (hc.drop _) fun h => htext (beq_iff_eq.mpr h))
  · exact List.forall_mem_map.mpr (names_readGenerics (hc.drop _))
  · refine List.forall_mem_flatMap.mpr fun f hf => ?_
    obtain ⟨n, first, d, hd, hf⟩ := readFrom_readClass hf
    exact names_readDeclaration hd (hc.drop n) hf
  · refine names_cursors fun q hq => ?_
    rw [hinvariant] at hq
    obtain ⟨m, hm, hq⟩ := List.mem_flatMap.mp hq
    cases is with
    | nil => cases hm
    | cons i is =>
      cases List.mem_singleton.mp hm
      obtain ⟨j, hj, hq⟩ := List.mem_flatMap.mp hq
      rw [← his] at hj
      obtain ⟨p, hp, hsome⟩ := List.mem_filterMap.mp hj
      obtain ⟨us, -, hread⟩ := hps.exists_stretch p hp
      cases hread with
      | declaration h => cases hsome
      | invariant n =>
        cases hsome
        exact names_readInvariant (hc.drop n) q hq

/-- **Every declared name is a word, and no keyword.** -/
theorem Source.isName_of_declared (s : Source) :
    ∀ n ∈ s.lex.parse.tree.classes.flatMap Naming.ofClass, IsName n.name.text.toList := by
  refine List.forall_mem_flatMap.mpr (List.forall_mem_singleton.mpr
    (names_readClass (P := fun n => IsName n.text.toList) fun t ht hname => ?_))
  have hmem : t ∈ s.lex.tokens.filter (·.kind.isItem) :=
    map_token_itemsAfter none s.lex.tokens ▸ ht
  exact s.isName_text t (List.mem_of_mem_filter hmem) (by simpa [Token.isIdentifier] using hname)

end ContractLint
