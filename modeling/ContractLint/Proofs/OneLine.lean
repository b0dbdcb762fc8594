/-
# One line per finding

A text report ends every finding with a line feed, and it is meant to have one line for each.  That
holds as long as the messages themselves have no line feeds.  This file proves how far it goes.

Messages copy much of the analysed text: names, categories, escapes, the file's own name.  All of it
is spelled on one line.  Names and categories come from tokens that end at a line feed at the
latest, as the likeness of a text to itself says of the whole tree (`Source.alike_self`); escapes
are the matter of `LineFeed.lean`.

TWO messages copy more: an error of the grammar shows the token that was found, and the finding
about an assertion without a label shows the assertion.  Either may be a verbatim string, and that
is the only token of several lines.  So `lineFeeds_report` says what a report's lines are in every
case: one for each finding, and further ones only by the strings that it shows (`Source.Shows`).
-/
import ContractLint.Proofs.Canonical
import ContractLint.Proofs.LikeReadings
import ContractLint.Proofs.LineFeed
import ContractLint.Report.Text

namespace ContractLint

open List (Forall₂)
open Text

/-! ## 1. What a tree copies -/

namespace Source

variable {s : Source}

theorem lineFeeds_of_ne_string {t : Token} (ht : t ∈ s.lex.tokens) (h : t.kind ≠ .string) :
    lineFeeds t.text = 0 :=
  lineFeeds_eq_zero_iff.mpr fun hmem => h (isString_of_newline t ht hmem)

theorem lineFeeds_commentText {t : Token} (ht : t ∈ s.lex.tokens) (h : t.kind = .comment) :
    lineFeeds t.commentText = 0 := by
  have htext : '\n' ∉ t.text.toList :=
    lineFeeds_eq_zero_iff.mp (lineFeeds_of_ne_string ht (by simp [h]))
  unfold Token.commentText trim trimChars dropEndWhile
  rw [lineFeeds_ofList_eq_zero_iff, List.mem_reverse, String.toList_ofList]
  intro hmem
  have hmem := List.mem_reverse.mp ((List.dropWhile_sublist _).subset hmem)
  exact htext (List.mem_of_mem_drop ((List.dropWhile_sublist _).subset hmem))

/-- Every token of a text is like itself, and what single tokens are copied into is on one line. -/
def likeness (s : Source) : Likeness where
  token t u := t = u ∧ t ∈ s.lex.tokens
  place _ _ := True
  name a b := a = b ∧ lineFeeds a = 0
  -- Parents, types and the targets of agents are copied as well, but no message shows them.
  parent _ _ := True
  text _ _ := True
  remark a b := a = b ∧ lineFeeds a = 0
  kind_eq := fun h => h.1 ▸ rfl
  fault_eq := fun h => h.1 ▸ rfl
  column_eq := fun h => h.1 ▸ rfl
  line_lt_iff := fun h h' => h.1 ▸ h'.1 ▸ Iff.rfl
  commentText_eq := fun h _ => h.1 ▸ rfl
  value_eq := fun h _ => h.1 ▸ rfl
  place_token := fun _ => trivial
  name_token := fun h hkind =>
    ⟨h.1 ▸ rfl, lineFeeds_of_ne_string h.2 (by simp [hkind])⟩
  name_empty := ⟨rfl, rfl⟩
  parent_token := fun _ _ => trivial
  text_token := fun _ => trivial
  text_render := fun _ => trivial
  text_dot := fun _ _ => trivial
  remark_token := fun h hkind => ⟨h.1 ▸ rfl, lineFeeds_commentText h.2 hkind⟩

/-- **A text is read as it is read.**  The tree of a text is like itself, part by part. -/
theorem alike_self (s : Source) : Parsed.Alike s.likeness s.lex.parse s.lex.parse :=
  parse_alike (List.forall₂_same.mpr fun _ ht => ⟨rfl, ht⟩)

end Source

/-- The subject that a text is to the checkers. -/
def Source.subject (s : Source) : Subject :=
  ⟨s.lex, s.lex.parse.tree⟩

section Parts

variable {s : Source}

theorem alike_of_mem_classes {c : ClassDecl} (hc : c ∈ s.subject.tree.classes) :
    ClassDecl.Alike s.likeness c c :=
  List.forall₂_same.mp s.alike_self.classes c hc

theorem alike_of_mem_class {c : ClassDecl} (hc : c ∈ s.subject.tree.classes) {f : Feature}
    (hf : f ∈ c.features) : Feature.Alike s.likeness f f := by
  obtain ⟨clause, hclause, hf⟩ := List.mem_flatMap.mp hf
  have halike := List.forall₂_same.mp (alike_of_mem_classes hc).clauses clause hclause
  exact List.forall₂_same.mp halike.features f hf

theorem alike_of_mem_features {f : Feature} (hf : f ∈ s.subject.tree.features.map Prod.snd) :
    Feature.Alike s.likeness f f := by
  obtain ⟨⟨c, g⟩, hpair, rfl⟩ := List.mem_map.mp hf
  obtain ⟨c', hc, hpair⟩ := List.mem_flatMap.mp hpair
  obtain ⟨g', hg, heq⟩ := List.mem_map.mp hpair
  cases heq
  exact alike_of_mem_class hc hg

theorem alike_of_mem_invariant {c : ClassDecl} (hc : c ∈ s.subject.tree.classes) {i : Invariant}
    (hi : i ∈ c.invariant.toList) : Invariant.Alike s.likeness i i :=
  rel_self_of_mem (alike_of_mem_classes hc).invariant i (Option.mem_toList.mp hi)

theorem alike_of_mem_blocks {b : AssertionBlock} (hb : b ∈ s.subject.tree.blocks) :
    AssertionBlock.Alike s.likeness b b := by
  obtain ⟨c, hc, hb⟩ := List.mem_flatMap.mp hb
  rcases List.mem_append.mp hb with hb | hb
  · obtain ⟨f, hf, hb⟩ := List.mem_flatMap.mp hb
    have halike := alike_of_mem_class hc hf
    rcases List.mem_append.mp hb with hb | hb
    · rcases List.mem_append.mp hb with hb | hb
      · exact rel_self_of_mem halike.precondition b (Option.mem_toList.mp hb)
      · exact rel_self_of_mem halike.postcondition b (Option.mem_toList.mp hb)
    · exact List.forall₂_same.mp halike.innerBlocks b hb
  · obtain ⟨i, hi, rfl⟩ := List.mem_map.mp hb
    exact (alike_of_mem_invariant hc hi).block

theorem alike_of_mem_agents {a : Agent} (ha : a ∈ s.subject.tree.agents) :
    Agent.Alike s.likeness a a := by
  obtain ⟨c, hc, ha⟩ := List.mem_flatMap.mp ha
  rcases List.mem_append.mp ha with ha | ha
  · obtain ⟨f, hf, ha⟩ := List.mem_flatMap.mp ha
    exact List.forall₂_same.mp (alike_of_mem_class hc hf).agents a ha
  · obtain ⟨i, hi, ha⟩ := List.mem_flatMap.mp ha
    exact List.forall₂_same.mp (alike_of_mem_invariant hc hi).agents a ha

/-- The tokens of a body are tokens of the text. -/
theorem mem_tokens_of_alike {b : Body} (h : Body.Alike s.likeness b b) :
    ∀ t ∈ b.tokens, t ∈ s.lex.tokens := by
  intro t ht
  cases h with
  | absent => cases ht
  | instructions tokens => exact (List.forall₂_same.mp tokens t ht).2
  | once keys tokens => exact (List.forall₂_same.mp tokens t ht).2
  | deferred => cases ht
  | external => cases ht
  | attributive tokens => exact (List.forall₂_same.mp tokens t ht).2

end Parts

/-! ## 2. What checkers tell -/

/-- The checker tells its findings on one line. -/
def Checker.Terse (c : Checker) (x : Subject) : Prop :=
  ∀ found, c.check x = .ok found → ∀ d ∈ found, lineFeeds d.message = 0

theorem Checker.terse_ofRules {name : String} {rs : List RuleSpec}
    {check : Subject → List Diagnostic} {x : Subject}
    (h : ∀ d ∈ check x, lineFeeds d.message = 0) : (Checker.ofRules name rs check).Terse x := by
  intro found hfound
  cases hfound
  exact h

theorem mem_of_mem_assignedAfter {t : Token} {prev : Option Token} {ts : List Token}
    (h : t ∈ assignedAfter prev ts) : t ∈ ts ∧ t.isIdentifier = true := by
  fun_induction assignedAfter prev ts with
  | case1 prev u v ts rest hassigned ih =>
    rcases List.mem_cons.mp h with rfl | h
    · simp only [Bool.and_eq_true] at hassigned
      exact ⟨List.mem_cons_self, hassigned.1.1⟩
    · exact ⟨List.mem_cons_of_mem _ (ih h).1, (ih h).2⟩
  | case2 prev u v ts rest hassigned ih => exact ⟨List.mem_cons_of_mem _ (ih h).1, (ih h).2⟩
  | case3 => cases h

section Checkers

variable {s : Source}

/-- A declared name is on one line, and so is what it is said to name. -/
def Naming.Declared.Terse (n : Declared) : Prop :=
  lineFeeds n.role = 0 ∧ lineFeeds n.name.text = 0

theorem Naming.terse_of_mem_cursors {qs : List Quantifier}
    (h : ∀ q ∈ qs, Quantifier.Alike s.likeness q q) : ∀ n ∈ cursors qs, n.Terse := by
  intro n hn
  obtain ⟨q, hq, hn⟩ := List.mem_filterMap.mp hn
  obtain ⟨name, hname, rfl⟩ := Option.map_eq_some_iff.mp hn
  exact ⟨lineFeeds_ofList _, (rel_self_of_mem (h q hq).cursor name hname).text.2⟩

theorem Naming.terse_of_mem_ofFeature {f : Feature} (h : Feature.Alike s.likeness f f) :
    ∀ n ∈ ofFeature f, n.Terse := by
  intro n hn
  unfold ofFeature at hn
  rcases List.mem_append.mp hn with hn | hn
  · rcases List.mem_append.mp hn with hn | hn
    · rcases List.mem_cons.mp hn with rfl | hn
      · exact ⟨lineFeeds_ofList _, h.name.text.2⟩
      · obtain ⟨p, hp, rfl⟩ := List.mem_map.mp hn
        exact ⟨lineFeeds_ofList _, (List.forall₂_same.mp h.parameters p hp).name.text.2⟩
    · obtain ⟨p, hp, rfl⟩ := List.mem_map.mp hn
      exact ⟨lineFeeds_ofList _, (List.forall₂_same.mp h.locals p hp).name.text.2⟩
  · exact terse_of_mem_cursors (List.forall₂_same.mp h.quantifiers) n hn

theorem Naming.terse_of_mem_ofClass {c : ClassDecl} (hc : c ∈ s.subject.tree.classes) :
    ∀ n ∈ ofClass c, n.Terse := by
  intro n hn
  have halike := alike_of_mem_classes hc
  unfold ofClass at hn
  rcases List.mem_append.mp hn with hn | hn
  · rcases List.mem_append.mp hn with hn | hn
    · rcases List.mem_append.mp hn with hn | hn
      · split at hn
        · cases hn
        · cases List.mem_singleton.mp hn
          exact ⟨lineFeeds_ofList _, halike.name.text.2⟩
      · obtain ⟨g, hg, rfl⟩ := List.mem_map.mp hn
        exact ⟨lineFeeds_ofList _, (List.forall₂_same.mp halike.generics g hg).text.2⟩
    · obtain ⟨f, hf, hn⟩ := List.mem_flatMap.mp hn
      exact terse_of_mem_ofFeature (alike_of_mem_class hc hf) n hn
  · refine @terse_of_mem_cursors s _ (fun q hq => ?_) n hn
    obtain ⟨i, hi, hq⟩ := List.mem_flatMap.mp hq
    exact List.forall₂_same.mp (alike_of_mem_invariant hc hi).quantifiers q hq

theorem Naming.terse : Naming.checker.Terse s.subject := by
  refine Checker.terse_ofRules fun d hd => ?_
  obtain ⟨n, hn, hd⟩ := List.mem_filterMap.mp hd
  obtain ⟨c, hc, hn⟩ := List.mem_flatMap.mp hn
  obtain ⟨hrole, hname⟩ := terse_of_mem_ofClass hc n hn
  have hstyle : lineFeeds n.style.label = 0 := by cases n.style <;> exact lineFeeds_ofList _
  unfold finding? at hd
  dsimp only at hd
  split at hd
  · cases hd
  · cases hd
    simp only [Subject.report, lineFeeds_append_eq_zero_iff, lineFeeds_toString, hrole, hname,
      hstyle, true_and, and_true]
    exact ⟨lineFeeds_ofList _, lineFeeds_ofList _⟩

theorem ContractPresence.terse : ContractPresence.checker.Terse s.subject := by
  refine Checker.terse_ofRules fun d hd => ?_
  obtain ⟨f, hf, rfl⟩ := List.mem_map.mp hd
  have hname := (alike_of_mem_features (List.mem_filter.mp hf).1).name.text.2
  simp only [finding, Subject.report, lineFeeds_append_eq_zero_iff, lineFeeds_toString,
    lineFeeds_nat, hname, true_and, and_true]
  exact ⟨lineFeeds_ofList _, lineFeeds_ofList _⟩

theorem Attachment.terse : Attachment.checker.Terse s.subject := by
  refine Checker.terse_ofRules fun d hd => ?_
  obtain ⟨f, hf, hd⟩ := List.mem_flatMap.mp hd
  obtain ⟨b, -, hd⟩ := List.mem_flatMap.mp hd
  obtain ⟨a, -, hd⟩ := List.mem_flatMap.mp hd
  obtain ⟨test, -, hd⟩ := List.mem_filterMap.mp hd
  obtain ⟨p, hp, rfl⟩ := Option.map_eq_some_iff.mp hd
  have halike := alike_of_mem_features hf
  have hargument : p ∈ f.parameters := by
    have hmem := List.mem_reverse.mp (List.mem_of_find?_eq_some hp)
    exact (List.mem_filter.mp hmem).1
  have hname := halike.name.text.2
  have hargumentName := (List.forall₂_same.mp halike.parameters p hargument).name.text.2
  simp only [Subject.report, lineFeeds_append_eq_zero_iff, lineFeeds_toString, hname, hargumentName,
    and_assoc, and_true]
  exact ⟨lineFeeds_ofList _, lineFeeds_ofList _, lineFeeds_ofList _, lineFeeds_ofList _⟩

theorem CommandQuery.terse : CommandQuery.checker.Terse s.subject := by
  refine Checker.terse_ofRules fun d hd => ?_
  obtain ⟨c, hc, hd⟩ := List.mem_flatMap.mp hd
  obtain ⟨f, hf, hd⟩ := List.mem_flatMap.mp hd
  have halike := alike_of_mem_class hc hf
  unfold ofFeature at hd
  split at hd
  · cases hd
  · obtain ⟨name, -, hd⟩ := List.mem_filterMap.mp hd
    obtain ⟨t, ht, rfl⟩ := Option.map_eq_some_iff.mp hd
    -- The attribute is shown as the body spells it, not as it was declared.
    have hassigned := (List.mem_filter.mp (List.mem_of_find?_eq_some ht)).1
    obtain ⟨hmem, hidentifier⟩ := mem_of_mem_assignedAfter hassigned
    have hkind : t.kind = .identifier := beq_iff_eq.mp hidentifier
    have htext := Source.lineFeeds_of_ne_string (mem_tokens_of_alike halike.body t hmem)
      (by simp [hkind])
    have hname := halike.name.text.2
    simp only [Subject.report, lineFeeds_append_eq_zero_iff, lineFeeds_toString, hname, htext,
      and_assoc, and_true]
    exact ⟨lineFeeds_ofList _, lineFeeds_ofList _, lineFeeds_ofList _, lineFeeds_ofList _⟩

theorem OnceClass.terse : OnceClass.checker.Terse s.subject := by
  refine Checker.terse_ofRules fun d hd => ?_
  obtain ⟨c, hc, hd⟩ := List.mem_flatMap.mp hd
  obtain ⟨creator, hcreator, hd⟩ := List.mem_filterMap.mp hd
  obtain ⟨message, hmessage, rfl⟩ := Option.map_eq_some_iff.mp hd
  have halike := alike_of_mem_classes (List.mem_filter.mp hc).1
  have hclass := halike.name.text.2
  have hname := (List.forall₂_same.mp halike.creators creator hcreator).text.2
  change lineFeeds message = 0
  unfold fault? at hmessage
  split at hmessage
  · cases hmessage
    simp only [lineFeeds_append_eq_zero_iff, lineFeeds_toString, hclass, hname, true_and]
    exact ⟨lineFeeds_ofList _, lineFeeds_ofList _⟩
  · split at hmessage
    · cases hmessage
    · cases hmessage
      simp only [lineFeeds_append_eq_zero_iff, lineFeeds_toString, hclass, hname, true_and]
      exact ⟨lineFeeds_ofList _, lineFeeds_ofList _⟩

theorem EscapeRule.terse : EscapeRule.checker.Terse s.subject := by
  refine Checker.terse_ofRules fun d hd => ?_
  obtain ⟨e, he, rfl⟩ := List.mem_map.mp hd
  change lineFeeds e.message = 0
  exact lineFeeds_of_mem_scanned (List.mem_filter.mp he).1

theorem FeatureClause.terse : FeatureClause.checker.Terse s.subject := by
  refine Checker.terse_ofRules fun d hd => ?_
  obtain ⟨c, hc, hd⟩ := List.mem_flatMap.mp hd
  obtain ⟨clause, hclause, hd⟩ := List.mem_flatMap.mp hd
  have halike := List.forall₂_same.mp (alike_of_mem_classes hc).clauses clause hclause
  unfold ofClause at hd
  split at hd
  · obtain ⟨f, hf, rfl⟩ := List.mem_map.mp hd
    have hname := (List.forall₂_same.mp halike.features f hf).name.text.2
    simp only [Subject.report, lineFeeds_append_eq_zero_iff, lineFeeds_toString, hname, and_true]
    exact ⟨lineFeeds_ofList _, lineFeeds_ofList _⟩
  · cases List.mem_singleton.mp hd
    exact lineFeeds_ofList _
  · rename_i category _ hcategory
    have hshown := (rel_self_of_mem halike.category category hcategory).2
    split at hd
    · cases hd
    · cases List.mem_singleton.mp hd
      simp only [Subject.report, lineFeeds_append_eq_zero_iff, lineFeeds_toString, hshown, and_true]
      exact ⟨lineFeeds_ofList _, lineFeeds_ofList _⟩

theorem Layout.lineFeeds_of_mem_trailingFrom (x : Subject) : ∀ (line start : Nat)
    (texts : List (List Char)), ∀ d ∈ trailingFrom x line start texts, lineFeeds d.message = 0
  | _, _, [] => fun _ hd => nomatch hd
  | line, start, text :: texts => by
    intro d hd
    rcases List.mem_append.mp hd with hd | hd
    · unfold trailing? at hd
      dsimp only at hd
      split at hd
      · cases hd
      · cases List.mem_singleton.mp hd
        simp only [Subject.report]
        split <;> exact lineFeeds_ofList _
    · exact lineFeeds_of_mem_trailingFrom x _ _ texts d hd

theorem Layout.terse : Layout.checker.Terse s.subject := by
  refine Checker.terse_ofRules fun d hd => ?_
  rcases List.mem_append.mp hd with hd | hd
  · exact lineFeeds_of_mem_scanned (List.mem_filter.mp hd).1
  · exact lineFeeds_of_mem_trailingFrom s.subject _ _ _ d hd

theorem HeaderComment.terse : HeaderComment.checker.Terse s.subject := by
  refine Checker.terse_ofRules fun d hd => ?_
  obtain ⟨f, hf, rfl⟩ := List.mem_map.mp hd
  have hfeature := (List.mem_filter.mp (List.mem_filter.mp hf).1).1
  have hname := (alike_of_mem_features hfeature).name.text.2
  simp only [Subject.report, lineFeeds_append_eq_zero_iff, lineFeeds_toString, hname, and_true]
  exact ⟨lineFeeds_ofList _, lineFeeds_ofList _⟩

/-- The part of a path that is shown has no more line feeds than the path. -/
theorem FileName.lineFeeds_base {path : String} (h : lineFeeds path = 0) :
    lineFeeds (base path) = 0 := by
  unfold base
  rw [lineFeeds_ofList_eq_zero_iff, List.mem_reverse]
  intro hmem
  have hmem := (List.takeWhile_sublist _).subset hmem
  exact lineFeeds_eq_zero_iff.mp h (List.mem_reverse.mp hmem)

theorem FileName.terse (hpath : lineFeeds s.path = 0) : FileName.checker.Terse s.subject := by
  refine Checker.terse_ofRules fun d hd => ?_
  unfold check at hd
  split at hd
  · cases hd
  · obtain ⟨c, hc, hd⟩ := List.mem_filterMap.mp hd
    have hname := (alike_of_mem_classes hc).name.text.2
    have hfile : lineFeeds (base s.subject.path) = 0 := lineFeeds_base hpath
    unfold finding? at hd
    dsimp only at hd
    split at hd
    · cases hd
    · cases hd
      simp only [Subject.report, lineFeeds_append_eq_zero_iff, lineFeeds_toString, hname, hfile,
        and_assoc, and_true]
      exact ⟨lineFeeds_ofList _, lineFeeds_ofList _, lineFeeds_ofList _⟩

theorem AgentForm.terse : AgentForm.checker.Terse s.subject := by
  refine Checker.terse_ofRules fun d hd => ?_
  obtain ⟨agent, hagent, hd⟩ := List.mem_flatMap.mp hd
  cases alike_of_mem_agents hagent with
  | inline location => cases hd
  | call location target feature arguments =>
    have hfeature := feature.2
    rcases List.mem_append.mp hd with hd | hd
    · obtain ⟨a, -, rfl⟩ := List.mem_map.mp hd
      simp only [stray, Subject.report, lineFeeds_append_eq_zero_iff, lineFeeds_toString, hfeature,
        and_true]
      exact lineFeeds_ofList _
    · split at hd
      · cases List.mem_singleton.mp hd
        simp only [allOpen, Subject.report, lineFeeds_append_eq_zero_iff, lineFeeds_toString,
          hfeature, and_true]
        exact ⟨lineFeeds_ofList _, lineFeeds_ofList _⟩
      · cases hd

theorem QuantifierForm.lineFeeds_missing (q : Quantifier) :
    ((missing q).map lineFeeds).sum = 0 := by
  have hcursor : lineFeeds "cursor name" = 0 := lineFeeds_ofList _
  have hcolon : lineFeeds "':'" = 0 := lineFeeds_ofList _
  have hbar : lineFeeds "'¦'" = 0 := lineFeeds_ofList _
  unfold missing
  split <;> split <;> split <;> simp [hcursor, hcolon, hbar]

theorem QuantifierForm.terse : QuantifierForm.checker.Terse s.subject := by
  refine Checker.terse_ofRules fun d hd => ?_
  obtain ⟨q, -, rfl⟩ := List.mem_map.mp hd
  have hsymbol : lineFeeds q.quantity.symbol.spelling = 0 :=
    lineFeeds_eq_zero_iff.mpr (Lexeme.newline_notMem_spelling _)
  have hmissing : lineFeeds (" and ".intercalate (missing q)) = 0 := by
    rw [lineFeeds_intercalate (lineFeeds_ofList _)]
    exact lineFeeds_missing q
  simp only [finding, Subject.report, lineFeeds_append_eq_zero_iff, lineFeeds_toString, hsymbol,
    hmissing, and_true]
  exact ⟨lineFeeds_ofList _, lineFeeds_ofList _⟩

/-- **Every checker but one tells its findings on one line.** -/
theorem terse_of_mem_registry (hpath : lineFeeds s.path = 0) {c : Checker} (hc : c ∈ registry) :
    c = AssertionLabeling.checker ∨ c.Terse s.subject := by
  simp only [registry, List.mem_cons, List.not_mem_nil, or_false] at hc
  rcases hc with rfl | rfl | rfl | rfl | rfl | rfl | rfl | rfl | rfl | rfl | rfl | rfl | rfl
  · exact .inr Naming.terse
  · exact .inr ContractPresence.terse
  · exact .inl rfl
  · exact .inr Attachment.terse
  · exact .inr CommandQuery.terse
  · exact .inr OnceClass.terse
  · exact .inr EscapeRule.terse
  · exact .inr FeatureClause.terse
  · exact .inr Layout.terse
  · exact .inr HeaderComment.terse
  · exact .inr (FileName.terse hpath)
  · exact .inr AgentForm.terse
  · exact .inr QuantifierForm.terse

end Checkers

/-! ## 3. What two messages show -/

/-- The tokens that stand in the message of `d` as they are written: the token that the grammar
found, or the expression of an assertion without a label. -/
inductive Source.Shows (s : Source) : Diagnostic → List Token → Prop
  | found {e : SyntaxError} {t : Token} (he : e ∈ s.lex.parse.errors)
      (ht : e.fault.found? = some t) :
      Shows s { rule := .syntaxError, severity := .error, message := e.fault.message,
                location := e.location, path := s.path } [t]
  | assertion {b : AssertionBlock} {a : Assertion} (hb : b ∈ s.lex.parse.tree.blocks)
      (ha : a ∈ b.assertions) (hlabel : a.label = none) :
      Shows s (AssertionLabeling.finding s.subject b.kind a) a.expression

/-- `d` is told on one line, or shows tokens of the text and has at most their line feeds. -/
def Source.Tells (s : Source) (d : Diagnostic) : Prop :=
  lineFeeds d.message ≠ 0 → ∃ ts, s.Shows d ts ∧ (∀ t ∈ ts, t ∈ s.lex.tokens) ∧
    lineFeeds d.message ≤ (ts.map fun t => lineFeeds t.text).sum

section Shown

variable {s : Source}

/-- The names that a fault asks for are on one line. -/
theorem lineFeeds_wanted {f : SyntaxFault} (h : SyntaxFault.Alike s.likeness f f) :
    lineFeeds f.wanted = 0 := by
  cases h with
  | plain h => cases f <;> first | rfl | cases h
  | expectedKeyword w _ => cases w <;> exact lineFeeds_ofList _
  | expectedSymbol symbol _ =>
    exact lineFeeds_eq_zero_iff.mpr (Lexeme.newline_notMem_spelling symbol)
  | expectedName role _ => cases role <;> exact lineFeeds_ofList _
  | bareFeature name _ => exact name.2
  | _ => rfl

/-- The token that a fault shows is a token of the text. -/
theorem mem_tokens_of_found {f : SyntaxFault} (h : SyntaxFault.Alike s.likeness f f) {t : Token}
    (ht : f.found? = some t) : t ∈ s.lex.tokens := by
  cases h with
  | plain h =>
    rw [h] at ht
    cases ht
  | _ =>
    cases ht
    rename_i h
    exact h.2

theorem tells_of_mem_parse {d : Diagnostic} (hd : d ∈ s.lex.parse.diagnostics) : s.Tells d := by
  obtain ⟨e, he, rfl⟩ := List.mem_map.mp hd
  have halike := (List.forall₂_same.mp s.alike_self.errors e he).fault
  intro hne
  cases hfound : e.fault.found? with
  | none => exact absurd (SyntaxFault.lineFeeds_message_of_none hfound) hne
  | some t =>
    refine ⟨[t], .found he hfound, ?_, ?_⟩
    · intro u hu
      rw [List.mem_singleton.mp hu]
      exact mem_tokens_of_found halike hfound
    · have hcount := SyntaxFault.lineFeeds_message_of_found hfound
      rw [lineFeeds_wanted halike, Token.lineFeeds_described] at hcount
      have hbound : lineFeeds e.fault.message ≤ lineFeeds t.text := by
        split at hcount <;> omega
      simpa using hbound

theorem Assertion.lineFeeds_expressionText (a : Assertion) :
    lineFeeds a.expressionText = (a.expression.map fun t => lineFeeds t.text).sum := by
  rw [expressionText, lineFeeds_intercalate (lineFeeds_ofList _), List.map_map]
  rfl

theorem AssertionLabeling.lineFeeds_snippet_le (text : String) :
    lineFeeds (snippet text) ≤ lineFeeds text := by
  unfold snippet
  split
  · have hdots : lineFeeds "..." = 0 := lineFeeds_ofList _
    rw [lineFeeds_append, hdots, lineFeeds_ofList]
    exact (List.take_sublist _ _).count_le _
  · exact Nat.le_refl _

theorem AssertionLabeling.lineFeeds_finding (x : Subject) (kind : AssertionKind) (a : Assertion) :
    lineFeeds (finding x kind a).message = lineFeeds (snippet a.expressionText) := by
  have hkind : lineFeeds kind.label = 0 := by cases kind <;> exact lineFeeds_ofList _
  have hmark : lineFeeds "'" = 0 := lineFeeds_ofList _
  have hopening : lineFeeds "unlabeled " = 0 := lineFeeds_ofList _
  have hquote : lineFeeds " '" = 0 := lineFeeds_ofList _
  simp only [finding, Subject.report, lineFeeds_append, lineFeeds_toString, hkind, hmark, hopening,
    hquote, Nat.zero_add, Nat.add_zero]

theorem AssertionLabeling.tells {d : Diagnostic} (hd : d ∈ check s.subject) : s.Tells d := by
  obtain ⟨b, hb, hd⟩ := List.mem_flatMap.mp hd
  obtain ⟨a, ha, rfl⟩ := List.mem_map.mp hd
  obtain ⟨ha, hlabel⟩ := List.mem_filter.mp ha
  have halike := List.forall₂_same.mp (alike_of_mem_blocks hb).assertions a ha
  intro _
  refine ⟨a.expression, .assertion hb ha (Option.isNone_iff_eq_none.mp hlabel), ?_, ?_⟩
  · exact fun t ht => (List.forall₂_same.mp halike.expression t ht).2
  · rw [lineFeeds_finding, ← Assertion.lineFeeds_expressionText]
    exact lineFeeds_snippet_le _

/-- **Every finding of a text is told on one line, up to the tokens that it shows.** -/
theorem tells_of_mem_pending (hpath : lineFeeds s.path = 0) {selected : List RuleId}
    {d : Diagnostic} (hd : d ∈ s.lex.parse.diagnostics ++
      CheckerRun.diagnostics (runCheckers registry selected s.subject)) : s.Tells d := by
  rcases List.mem_append.mp hd with hd | hd
  · exact tells_of_mem_parse hd
  · obtain ⟨run, hrun, hd⟩ := List.mem_flatMap.mp hd
    obtain ⟨c, hc, rfl⟩ := List.mem_map.mp hrun
    have hc := (List.mem_filter.mp hc).1
    obtain ⟨found, hfound, -⟩ := honest_of_mem_registry hc s.subject
    have hmem : d ∈ found := by
      unfold Checker.run at hd
      rw [hfound] at hd
      exact (List.mem_filter.mp hd).1
    rcases terse_of_mem_registry hpath hc with rfl | hterse
    · cases hfound
      exact AssertionLabeling.tells hmem
    · exact fun hne => absurd (hterse found hfound d hmem) hne

end Shown

/-! ## 4. Reports -/

theorem Diagnostic.lineFeeds_place {d : Diagnostic} (h : lineFeeds d.path = 0) :
    lineFeeds d.place = 0 := by
  simp only [place, Location.label, lineFeeds_append_eq_zero_iff, lineFeeds_toString, lineFeeds_int,
    h, and_assoc, true_and, and_true]
  exact ⟨lineFeeds_ofList _, lineFeeds_ofList _, lineFeeds_ofList _⟩

theorem Severity.lineFeeds_label (v : Severity) : lineFeeds v.label = 0 := by
  cases v <;> exact lineFeeds_ofList _

namespace Report

theorem lineFeeds_sequence (code : Nat) : lineFeeds (sequence code) = 0 := by
  simp only [sequence, lineFeeds_append_eq_zero_iff, lineFeeds_toString, lineFeeds_nat, and_true]
  exact ⟨lineFeeds_ofList _, lineFeeds_ofList _⟩

/-- The painter adds no line feed and drops none. -/
def Painter.KeepsLines (paint : Painter) : Prop :=
  ∀ styles s, lineFeeds (paint styles s) = lineFeeds s

theorem ansi_keepsLines : Painter.KeepsLines ansi := fun styles s => by
  simp only [ansi, lineFeeds_append, lineFeeds_join, lineFeeds_sequence, List.map_map,
    Function.comp_def, List.map_const', List.sum_replicate, smul_zero, Nat.zero_add, Nat.add_zero]

section

variable {paint : Painter} (hpaint : paint.KeepsLines)
include hpaint

/-- The message alone decides how many lines a finding takes, with colour and without. -/
theorem lineFeeds_textLine (color : Bool) {d : Diagnostic} (hpath : lineFeeds d.path = 0)
    (hrule : lineFeeds d.rule = 0) : lineFeeds (textLine paint color d) = lineFeeds d.message := by
  have hplace := Diagnostic.lineFeeds_place hpath
  have hlabel := d.severity.lineFeeds_label
  have hspace : lineFeeds " " = 0 := lineFeeds_ofList _
  have hopening : lineFeeds "[" = 0 := lineFeeds_ofList _
  have hclosing : lineFeeds "]" = 0 := lineFeeds_ofList _
  have hgap : lineFeeds " [" = 0 := lineFeeds_ofList _
  have hgap' : lineFeeds "] " = 0 := lineFeeds_ofList _
  cases color with
  | false =>
    change lineFeeds d.toText = lineFeeds d.message
    rw [Diagnostic.toText]
    simp [hplace, hlabel, hspace, hgap, hgap', hrule]
  | true =>
    change lineFeeds (coloredLine paint d) = lineFeeds d.message
    rw [coloredLine, lineFeeds_intercalate hspace]
    simp [hpaint _ _, hplace, hlabel, hopening, hclosing, hrule]

/-- **A report has one line for each finding, and those that its messages add.** -/
theorem lineFeeds_text (color : Bool) {ds : List Diagnostic}
    (h : ∀ d ∈ ds, lineFeeds d.path = 0 ∧ lineFeeds d.rule = 0) :
    lineFeeds (text paint color ds) = ds.length + (ds.map fun d => lineFeeds d.message).sum := by
  have hend : lineFeeds "\n" = 1 := lineFeeds_ofList _
  unfold text
  rw [lineFeeds_join]
  induction ds with
  | nil => rfl
  | cons d ds ih =>
    have hd := h d List.mem_cons_self
    have ih := ih fun e he => h e (List.mem_cons_of_mem _ he)
    rw [List.map_cons, List.map_cons, List.sum_cons, lineFeeds_append, hend,
      lineFeeds_textLine hpaint color hd.1 hd.2, ih, List.map_cons, List.sum_cons, List.length_cons]
    omega

end

end Report

/-- The rules under which a text can have findings have names on one line. -/
theorem lineFeeds_rule {r : RuleId} (h : r = .syntaxError ∨ r ∈ Rulebook.everyRule) :
    lineFeeds r = 0 := by
  rcases h with rfl | h
  · exact lineFeeds_ofList _
  · obtain ⟨spec, hspec, rfl⟩ := List.mem_map.mp h
    simp only [Rulebook.rules, List.mem_cons, List.not_mem_nil, or_false] at hspec
    rcases hspec with rfl | rfl | rfl | rfl | rfl | rfl | rfl | rfl | rfl | rfl | rfl | rfl | rfl |
      rfl
    all_goals exact lineFeeds_ofList _

theorem rule_of_mem_pending {s : Source} {selected : List RuleId} {d : Diagnostic}
    (hd : d ∈ s.lex.parse.diagnostics ++
      CheckerRun.diagnostics (runCheckers registry selected s.subject)) :
    d.path = s.path ∧ (d.rule = .syntaxError ∨ d.rule ∈ Rulebook.everyRule) := by
  rcases List.mem_append.mp hd with hd | hd
  · have haccounts := @accounts_of_mem_parsed s.subject s.lex.parse rfl d hd
    exact ⟨haccounts.path_eq, .inl (List.mem_singleton.mp haccounts.rule_mem)⟩
  · obtain ⟨run, hrun, hd⟩ := List.mem_flatMap.mp hd
    obtain ⟨c, hc, rfl⟩ := List.mem_map.mp hrun
    have hc := (List.mem_filter.mp hc).1
    have haccounts := (honest_of_mem_registry hc s.subject).accounts_of_mem_run hd
    exact ⟨haccounts.path_eq, .inr (mem_everyRule hc haccounts.rule_mem)⟩

/-- **The lines of a text report.**  Whatever the text, the selected rules and the colour, for every
path on one line and every painter that keeps the lines of what it paints, a report has one line for
each finding and those that messages add.  A message adds lines only by the tokens it shows, at most
as many as these have, and each shown token with a line feed is a string.  So a report on a text
without strings of several lines has exactly one line for each finding. -/
theorem lineFeeds_report (raw path : String) (hpath : '\n' ∉ path.toList) (policy : Policy)
    (paint : Report.Painter) (hpaint : paint.KeepsLines) (color : Bool) :
    let s := Source.ofString raw path
    let ds := (s.analyse policy).collected.diagnostics
    lineFeeds (Report.text paint color ds) =
        ds.length + (ds.map fun d => lineFeeds d.message).sum ∧
      (∀ d ∈ ds, lineFeeds d.message ≠ 0 → ∃ ts, s.Shows d ts ∧
        lineFeeds d.message ≤ (ts.map fun t => lineFeeds t.text).sum ∧
        ∀ t ∈ ts, t ∈ s.lex.tokens ∧ (lineFeeds t.text ≠ 0 → t.kind = .string)) ∧
      ((∀ t ∈ s.lex.tokens, t.kind = .string → lineFeeds t.text = 0) →
        lineFeeds (Report.text paint color ds) = ds.length) := by
  intro s ds
  have hpath : lineFeeds s.path = 0 := lineFeeds_eq_zero_iff.mpr hpath
  have hlines : lineFeeds (Report.text paint color ds) =
      ds.length + (ds.map fun d => lineFeeds d.message).sum := by
    refine Report.lineFeeds_text hpaint color fun d hd => ?_
    obtain ⟨hdpath, hrule⟩ := rule_of_mem_pending (Collection.mem_pending_of_mem_close hd)
    exact ⟨hdpath ▸ hpath, lineFeeds_rule hrule⟩
  have hstring : ∀ t ∈ s.lex.tokens, lineFeeds t.text ≠ 0 → t.kind = .string := by
    intro t ht hne
    by_contra hkind
    exact hne (Source.lineFeeds_of_ne_string ht hkind)
  have htells : ∀ d ∈ ds, s.Tells d := fun d hd =>
    tells_of_mem_pending hpath (Collection.mem_pending_of_mem_close hd)
  refine ⟨hlines, fun d hd hne => ?_, fun hstrings => ?_⟩
  · obtain ⟨ts, hshows, hmem, hle⟩ := htells d hd hne
    exact ⟨ts, hshows, hle, fun t ht => ⟨hmem t ht, hstring t (hmem t ht)⟩⟩
  · have hmessages : ∀ d ∈ ds, lineFeeds d.message = 0 := by
      intro d hd
      by_contra hne
      obtain ⟨ts, -, hmem, hle⟩ := htells d hd hne
      have hzero : (ts.map fun t => lineFeeds t.text).sum = 0 := by
        refine List.sum_eq_zero fun n hn => ?_
        obtain ⟨t, ht, rfl⟩ := List.mem_map.mp hn
        by_contra hfeeds
        exact hfeeds (hstrings t (hmem t ht) (hstring t (hmem t ht) hfeeds))
      omega
    have hsum : (ds.map fun d => lineFeeds d.message).sum = 0 := by
      refine List.sum_eq_zero fun n hn => ?_
      obtain ⟨d, hd, rfl⟩ := List.mem_map.mp hn
      exact hmessages d hd
    omega

/-- A string of one line in place of a feature: an error shows it, and the report has a line for
each finding. -/
theorem lineFeeds_report_sample :
    let s := Source.ofString "class A feature \"x\" end" "a.e"
    let ds := (s.analyse {}).collected.diagnostics
    s.lex.parse.errors.map (·.fault.found?.map Token.text) = [some "\"x\""] ∧
      lineFeeds (Report.text Report.ansi true ds) = ds.length := by
  intro s ds
  obtain ⟨hfound, hstrings⟩ :
      s.lex.parse.errors.map (·.fault.found?.map Token.text) = [some "\"x\""] ∧
        (s.lex.tokens.all fun t => t.kind != .string || lineFeeds t.text == 0) = true := by
    cbv
  refine ⟨hfound, (lineFeeds_report _ "a.e" (by decide) {} Report.ansi Report.ansi_keepsLines
    true).2.2 fun t ht hkind => ?_⟩
  simpa [hkind] using List.all_eq_true.mp hstrings t ht

/-- A single finding that nothing suppresses is all of its report. -/
theorem Collection.diagnostics_close_singleton (threshold : Severity) (d : Diagnostic) :
    (Collection.mk threshold [] [d]).close.diagnostics = [d] := by
  simp [close, kept, Suppression.filter, Suppression.isSuppressed, Diagnostic.dedupe,
    Diagnostic.sort]

/-- **A report may have more lines than findings.**  In place of a feature stands a verbatim string
of two lines; the one finding shows it, line feed and all. -/
theorem lineFeeds_report_verbatim :
    let s := Source.ofString "class A feature \"[\n]\" end" "a.e"
    let ds := (s.analyse { rules := [.naming] }).collected.diagnostics
    ds.length = 1 ∧ lineFeeds (Report.text Report.ansi false ds) = 2 := by
  intro s ds
  -- The stages are evaluated up to the fault; how the message words it is left to the lemmas.
  let found : Token := { kind := .string, text := "\"[\n]\"", location := ⟨1, 17, 16⟩ }
  let error : Diagnostic :=
    { rule := .syntaxError, severity := .error, path := "a.e", location := ⟨1, 17, 16⟩
      message := SyntaxFault.message (.expectedFeature found) }
  have hstages : (s.lex.parse.errors, suppressions s.lex.tokens,
      CheckerRun.diagnostics (runCheckers registry [.naming] s.subject)) =
        ([⟨.expectedFeature found, ⟨1, 17, 16⟩⟩], [], []) := by
    cbv
  obtain ⟨herrors, hcovered, hchecked⟩ := by simpa only [Prod.mk.injEq] using hstages
  have hparsed : s.lex.parse.diagnostics = [error] := by
    unfold Parsed.diagnostics
    rw [herrors]
    rfl
  have hds : ds = [error] := by
    change (Collection.mk .error (suppressions s.lex.tokens) (s.lex.parse.diagnostics ++
      CheckerRun.diagnostics (runCheckers registry [.naming] s.subject))).close.diagnostics = _
    rw [hcovered, hparsed, hchecked, List.append_nil]
    exact Collection.diagnostics_close_singleton .error error
  have hfeeds : lineFeeds error.message = 1 := by
    have hmessage := @SyntaxFault.lineFeeds_message_of_found (.expectedFeature found) found rfl
    have hfound : lineFeeds found.text = 1 := lineFeeds_ofList _
    rw [Token.lineFeeds_described] at hmessage
    change _ = lineFeeds "" + lineFeeds found.text at hmessage
    rw [hmessage, lineFeeds_empty, hfound]
  have hplain : ∀ d ∈ [error], lineFeeds d.path = 0 ∧ lineFeeds d.rule = 0 := by
    intro d hd
    rw [List.mem_singleton.mp hd]
    exact ⟨lineFeeds_ofList _, lineFeeds_ofList _⟩
  rw [hds, Report.lineFeeds_text Report.ansi_keepsLines false hplain]
  simp [hfeeds]

end ContractLint
