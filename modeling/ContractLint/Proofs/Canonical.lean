/-
# Reports are in canonical form

A report is sorted by line, column, rule and message, but repeats are removed by comparing the whole
location, offset included.  So a report could hold two findings that sort alike and differ in their
offsets only, and then nothing would decide between them.  This file proves that it never does.

The reason is not in the collection but in everything before it.  Every checker reports at places of
the tree, at findings of the scan or at ends of lines, and the grammar at tokens; all of these are
points of the text (`Source.charted`).  Among the points of one text, line and column determine the
offset.  The one other location, that of a checker that failed, is on no line of the text.

`report_canonical` is the result: a report increases strictly in `Diagnostic.key`, whichever
checkers fail, and where none does it does not decrease in the offset.
-/
import ContractLint.Proofs.Arrangement
import ContractLint.Proofs.Place
import ContractLint.Proofs.Point
import Mathlib.Data.Prod.Lex
import Mathlib.Data.String.Basic

namespace ContractLint

/-! ## 1. The key of a finding -/

namespace Diagnostic

/-- What reports are sorted by: line, column, rule and message, in this order of importance. -/
def key (d : Diagnostic) : Int ×ₗ Int ×ₗ RuleId ×ₗ String :=
  toLex (d.location.line, toLex (d.location.column, toLex (d.rule, d.message)))

theorem key_lt_iff (a b : Diagnostic) :
    a.key < b.key ↔ a.location.line < b.location.line ∨
      (a.location.line = b.location.line ∧ (a.location.column < b.location.column ∨
        (a.location.column = b.location.column ∧ (a.rule < b.rule ∨
          (a.rule = b.rule ∧ a.message < b.message))))) := by
  simp only [key, Prod.Lex.toLex_lt_toLex]

/-- Findings that compare as less have the lesser key. -/
theorem key_lt_of_order {a b : Diagnostic} (h : order a b = .lt) : a.key < b.key := by
  simp only [order, compareLex, compareOn, Ordering.then_eq_lt, Ordering.then_eq_eq,
    compare_lt_iff_lt, compare_eq_iff_eq] at h
  rw [key_lt_iff]
  tauto

/-- A finding with the lesser key does not stand further on in the text. -/
theorem not_before_of_key_lt {a b : Diagnostic} (h : a.key < b.key) :
    ¬ b.location.Before a.location := by
  rw [key_lt_iff] at h
  unfold Location.Before
  omega

end Diagnostic

/-! ## 2. Strict order -/

/-- `d` belongs to the file and is reported at a point of the text or at none. -/
structure Source.Owns (s : Source) (d : Diagnostic) : Prop where
  path_eq : d.path = s.path
  location : s.Marks d.location ∨ d.location = .unknown

namespace Source.Owns

variable {s : Source} {a b : Diagnostic}

/-- **Line and column of a finding determine its location.** -/
theorem location_eq (ha : s.Owns a) (hb : s.Owns b) (hline : a.location.line = b.location.line)
    (hcolumn : a.location.column = b.location.column) : a.location = b.location := by
  have hunknown : Location.unknown.line = 0 := rfl
  rcases ha.location with hpoint | hnone
  · rcases hb.location with hpoint' | hnone'
    · exact hpoint.eq_of_line_column hpoint' hline hcolumn
    · have hpos := hpoint.line_pos
      rw [hnone'] at hline
      omega
  · rcases hb.location with hpoint' | hnone'
    · have hpos := hpoint'.line_pos
      rw [hnone] at hline
      omega
    · rw [hnone, hnone']

/-- Findings that tie are repeats. -/
theorem identity_eq (ha : s.Owns a) (hb : s.Owns b) (h : Diagnostic.order a b = .eq) :
    a.identity = b.identity := by
  simp only [Diagnostic.order, compareLex, compareOn, Ordering.then_eq_eq, compare_eq_iff_eq] at h
  obtain ⟨⟨⟨hline, hcolumn⟩, hrule⟩, hmessage⟩ := h
  have hlocation := ha.location_eq hb hline hcolumn
  have hpath : a.path = b.path := ha.path_eq.trans hb.path_eq.symm
  simp [Diagnostic.identity, hpath, hrule, hlocation, hmessage]

end Source.Owns

namespace Collection

variable {c : Collection} {s : Source}

/-- Whatever a report shows was pending. -/
theorem mem_pending_of_mem_close {d : Diagnostic} (hd : d ∈ c.close.diagnostics) :
    d ∈ c.pending := by
  have hkept := Diagnostic.mem_of_mem_dedupe (Diagnostic.mem_sort.mp hd)
  exact (List.mem_filter.mp hkept).1

/-- **The report of findings of one file increases strictly.**  Of two findings the first does not
sort behind the second, and they do not tie, because then they would be repeats. -/
theorem pairwise_key_close (h : ∀ d ∈ c.pending, s.Owns d) :
    c.close.diagnostics.Pairwise fun a b => a.key < b.key := by
  have hsorted := Diagnostic.pairwise_sort (Diagnostic.dedupe c.kept)
  have hdistinct : (Diagnostic.sort (Diagnostic.dedupe c.kept)).Pairwise
      fun a b => a.identity ≠ b.identity := by
    refine ((List.mergeSort_perm _ _).pairwise_iff ?_).mpr (Diagnostic.pairwise_dedupe c.kept)
    exact fun hab hba => hab hba.symm
  refine (hsorted.and hdistinct).imp_of_mem fun {a b} ha hb hab => ?_
  obtain ⟨hprecedes, hidentity⟩ := hab
  have hne : Diagnostic.order a b ≠ .eq := by
    intro heq
    exact hidentity ((h a (mem_pending_of_mem_close ha)).identity_eq
      (h b (mem_pending_of_mem_close hb)) heq)
  apply Diagnostic.key_lt_of_order
  rw [Diagnostic.precedes_eq] at hprecedes
  cases horder : Diagnostic.order a b with
  | lt => rfl
  | eq => exact absurd horder hne
  | gt =>
    rw [horder] at hprecedes
    cases hprecedes

end Collection

/-! ## 3. Charted subjects -/

/-- Every place in the tree and every finding of the scan is a point of the text. -/
structure Subject.Charted (x : Subject) : Prop where
  place : ∀ c ∈ x.tree.classes, ∀ l ∈ c.places, x.lexed.source.Marks l
  finding : ∀ f ∈ x.lexed.findings, x.lexed.source.Marks f.location

/-- The locations of all tokens of a text are points of it. -/
theorem marks_of_mem_spots {s : Source} {l : Location} (hl : l ∈ (Cursor.ofLexed s.lex).spots) :
    s.Marks l := by
  obtain ⟨t, ht, rfl⟩ := List.mem_map.mp hl
  rw [allTokens_ofLexed] at ht
  exact Source.marks_token (List.mem_filter.mp ht).1

/-- **Every text is charted.** -/
theorem Source.charted (s : Source) : Subject.Charted ⟨s.lex, s.lex.parse.tree⟩ := by
  constructor
  · intro c hc l hl
    rw [List.mem_singleton.mp hc] at hl
    have hplaces := places_readClass (Cursor.ofLexed s.lex)
    exact marks_of_mem_spots (hplaces (List.mem_append_left _ hl))
  · intro f hf
    exact Source.marks_finding hf

/-- The errors of the grammar and of tokens are reported at points. -/
theorem owns_of_mem_parse {s : Source} {d : Diagnostic} (hd : d ∈ s.lex.parse.diagnostics) :
    s.Owns d ∧ s.Marks d.location := by
  obtain ⟨e, he, rfl⟩ := List.mem_map.mp hd
  have hpoint : s.Marks e.location := by
    rcases List.mem_append.mp he with he | he
    · obtain ⟨t, ht, hfault⟩ := List.mem_filterMap.mp he
      obtain ⟨fault, -, rfl⟩ := Option.map_eq_some_iff.mp hfault
      exact Source.marks_token ht
    · have hplaces := places_readClass (Cursor.ofLexed s.lex)
      exact marks_of_mem_spots
        (hplaces (List.mem_append_right _ (List.mem_map_of_mem he)))
  exact ⟨⟨rfl, .inl hpoint⟩, hpoint⟩

namespace Subject.Charted

variable {x : Subject} (h : x.Charted) {l : Location}

include h

theorem feature_of_class {c : ClassDecl} (hc : c ∈ x.tree.classes) {f : Feature}
    (hf : f ∈ c.features) (hl : l ∈ f.places) : x.lexed.source.Marks l := by
  obtain ⟨clause, hclause, hf⟩ := List.mem_flatMap.mp hf
  refine h.place c hc l (List.mem_append_left _ (List.mem_append_right _ ?_))
  exact List.mem_flatMap.mpr ⟨clause, hclause,
    List.mem_cons_of_mem _ (List.mem_flatMap.mpr ⟨f, hf, hl⟩)⟩

theorem feature {f : Feature} (hf : f ∈ x.tree.features.map Prod.snd) (hl : l ∈ f.places) :
    x.lexed.source.Marks l := by
  obtain ⟨⟨c, g⟩, hpair, rfl⟩ := List.mem_map.mp hf
  obtain ⟨c', hc, hpair⟩ := List.mem_flatMap.mp hpair
  obtain ⟨g', hg, heq⟩ := List.mem_map.mp hpair
  cases heq
  exact h.feature_of_class hc hg hl

theorem name {f : Feature} (hf : f ∈ x.tree.features.map Prod.snd) :
    x.lexed.source.Marks f.name.location :=
  h.feature hf (by simp [Feature.places])

theorem inInvariant {c : ClassDecl} (hc : c ∈ x.tree.classes) {i : Invariant}
    (hi : i ∈ c.invariant.toList) (hl : l ∈ i.places) : x.lexed.source.Marks l :=
  h.place c hc l (List.mem_append_right _ (List.mem_flatMap.mpr ⟨i, hi, hl⟩))

theorem block {b : AssertionBlock} (hb : b ∈ x.tree.blocks) (hl : l ∈ b.places) :
    x.lexed.source.Marks l := by
  obtain ⟨c, hc, hb⟩ := List.mem_flatMap.mp hb
  rcases List.mem_append.mp hb with hb | hb
  · obtain ⟨f, hf, hb⟩ := List.mem_flatMap.mp hb
    have hblocks : l ∈ f.blocks.flatMap AssertionBlock.places := List.mem_flatMap.mpr ⟨b, hb, hl⟩
    exact h.feature_of_class hc hf (by simp [Feature.places, hblocks])
  · obtain ⟨i, hi, rfl⟩ := List.mem_map.mp hb
    exact h.inInvariant hc hi (by simp [Invariant.places, hl])

theorem agent {a : Agent} (ha : a ∈ x.tree.agents) (hl : l ∈ a.places) :
    x.lexed.source.Marks l := by
  obtain ⟨c, hc, ha⟩ := List.mem_flatMap.mp ha
  rcases List.mem_append.mp ha with ha | ha
  · obtain ⟨f, hf, ha⟩ := List.mem_flatMap.mp ha
    have hagents : l ∈ f.agents.flatMap Agent.places := List.mem_flatMap.mpr ⟨a, ha, hl⟩
    exact h.feature_of_class hc hf (by simp [Feature.places, hagents])
  · obtain ⟨i, hi, ha⟩ := List.mem_flatMap.mp ha
    have hagents : l ∈ i.agents.flatMap Agent.places := List.mem_flatMap.mpr ⟨a, ha, hl⟩
    exact h.inInvariant hc hi (by simp [Invariant.places, hagents])

theorem quantifier {q : Quantifier} (hq : q ∈ x.tree.quantifiers) (hl : l ∈ q.places) :
    x.lexed.source.Marks l := by
  obtain ⟨c, hc, hq⟩ := List.mem_flatMap.mp hq
  rcases List.mem_append.mp hq with hq | hq
  · obtain ⟨f, hf, hq⟩ := List.mem_flatMap.mp hq
    have hquantifiers : l ∈ f.quantifiers.flatMap Quantifier.places :=
      List.mem_flatMap.mpr ⟨q, hq, hl⟩
    exact h.feature_of_class hc hf (by simp [Feature.places, hquantifiers])
  · obtain ⟨i, hi, hq⟩ := List.mem_flatMap.mp hq
    have hquantifiers : l ∈ i.quantifiers.flatMap Quantifier.places :=
      List.mem_flatMap.mpr ⟨q, hq, hl⟩
    exact h.inInvariant hc hi (by simp [Invariant.places, hquantifiers])

/-- What the scan reports is at a point. -/
theorem scanned {d : Diagnostic} (hd : d ∈ x.lexed.diagnostics) :
    x.lexed.source.Marks d.location := by
  obtain ⟨f, hf, rfl⟩ := List.mem_map.mp hd
  have hpoint := h.finding f hf
  unfold Finding.diagnostic
  split <;> exact hpoint

end Subject.Charted

/-! ## 4. Where each checker reports -/

/-- The checker reports at points of the text only. -/
def Checker.Points (c : Checker) (x : Subject) : Prop :=
  ∀ found, c.check x = .ok found → ∀ d ∈ found, x.lexed.source.Marks d.location

theorem Checker.points_ofRules {name : String} {rs : List RuleSpec}
    {check : Subject → List Diagnostic} {x : Subject}
    (h : ∀ d ∈ check x, x.lexed.source.Marks d.location) :
    (Checker.ofRules name rs check).Points x := by
  intro found hfound
  cases hfound
  exact h

/-- The cursors of quantifiers are among their places. -/
theorem Naming.location_mem_of_mem_cursors {qs : List Quantifier} {n : Declared}
    (hn : n ∈ cursors qs) : n.name.location ∈ qs.flatMap Quantifier.places := by
  obtain ⟨q, hq, hn⟩ := List.mem_filterMap.mp hn
  obtain ⟨name, hname, rfl⟩ := Option.map_eq_some_iff.mp hn
  refine List.mem_flatMap.mpr ⟨q, hq, List.mem_cons_of_mem _ ?_⟩
  rw [hname]
  exact List.mem_singleton_self _

/-- The names that a feature declares are among its places. -/
theorem Naming.location_mem_of_mem_ofFeature {f : Feature} {n : Declared} (hn : n ∈ ofFeature f) :
    n.name.location ∈ f.places := by
  unfold ofFeature at hn
  rcases List.mem_append.mp hn with hn | hn
  · rcases List.mem_append.mp hn with hn | hn
    · rcases List.mem_cons.mp hn with rfl | hn
      · simp [Feature.places]
      · obtain ⟨p, hp, rfl⟩ := List.mem_map.mp hn
        have hplace : p.name.location ∈ f.parameters.map Entity.place := List.mem_map_of_mem hp
        simp only [Feature.places, List.mem_append, List.mem_cons]
        tauto
    · obtain ⟨p, hp, rfl⟩ := List.mem_map.mp hn
      have hplace : p.name.location ∈ f.locals.map Entity.place := List.mem_map_of_mem hp
      simp only [Feature.places, List.mem_append, List.mem_cons]
      tauto
  · exact List.mem_append_right _ (location_mem_of_mem_cursors hn)

/-- The tests of an expression are reported at tokens of it. -/
theorem Attachment.token_mem_of_mem_testsAfter {test : VoidTest} : ∀ {prev : Option Token}
    {ts : List Token}, test ∈ testsAfter prev ts → test.token ∈ prev.toList ++ ts
  | prev, [], ht => nomatch ht
  | prev, t :: ts, ht => by
    rcases List.mem_append.mp ht with ht | ht
    · have ht := Option.mem_toList.mp ht
      have hattached : ∀ {u : Token}, u ∈ prev.filter (·.isKeyword [.kwAttached]) →
          u ∈ prev.toList ++ t :: ts := by
        intro u hu
        obtain ⟨hu, -⟩ := Option.filter_eq_some_iff.mp hu
        exact List.mem_append_left _ (Option.mem_toList.mpr hu)
      have hself : t ∈ prev.toList ++ t :: ts := List.mem_append_right _ List.mem_cons_self
      unfold testAt? at ht
      dsimp only at ht
      split at ht
      · split at ht
        · split at ht
          · cases ht
          · cases ht
            exact hself
        · split at ht
          · cases ht
          · obtain ⟨u, hu, rfl⟩ := Option.map_eq_some_iff.mp ht
            exact hattached hu
      · split at ht
        · split at ht
          · split at ht
            · cases ht
              exact hself
            · cases ht
          · cases ht
        · cases ht
    · have ih := token_mem_of_mem_testsAfter ht
      exact List.mem_append_right _ ih

/-- The ends of lines are points. -/
theorem Layout.marks_of_mem_trailingFrom (x : Subject) : ∀ (line start : Nat)
    (texts : List (List Char)), ∀ d ∈ trailingFrom x line start texts,
      x.lexed.source.Marks d.location
  | _, _, [] => fun _ hd => nomatch hd
  | line, start, text :: texts => by
    intro d hd
    rcases List.mem_append.mp hd with hd | hd
    · unfold trailing? at hd
      dsimp only at hd
      split at hd
      · cases hd
      · cases List.mem_singleton.mp hd
        exact Source.marks_location _ _
    · exact marks_of_mem_trailingFrom x _ _ texts d hd

section Checkers

variable {x : Subject} (h : x.Charted)

include h

theorem Naming.points : Naming.checker.Points x := by
  refine Checker.points_ofRules fun d hd => ?_
  obtain ⟨n, hn, hd⟩ := List.mem_filterMap.mp hd
  have hpoint : x.lexed.source.Marks n.name.location := by
    obtain ⟨c, hc, hn⟩ := List.mem_flatMap.mp hn
    unfold ofClass at hn
    rcases List.mem_append.mp hn with hn | hn
    · rcases List.mem_append.mp hn with hn | hn
      · rcases List.mem_append.mp hn with hn | hn
        · split at hn
          · cases hn
          · cases List.mem_singleton.mp hn
            exact h.place c hc _ (by simp [ClassDecl.places])
        · obtain ⟨g, hg, rfl⟩ := List.mem_map.mp hn
          have hplace : g.location ∈ (c.generics ++ c.parents ++ c.creators).map Name.location :=
            List.mem_map_of_mem (List.mem_append_left _ (List.mem_append_left _ hg))
          exact h.place c hc _ (List.mem_append_left _ (List.mem_append_left _
            (List.mem_cons_of_mem _ hplace)))
      · obtain ⟨f, hf, hn⟩ := List.mem_flatMap.mp hn
        exact h.feature_of_class hc hf (location_mem_of_mem_ofFeature hn)
    · obtain ⟨q, hq, hl⟩ := List.mem_flatMap.mp (location_mem_of_mem_cursors hn)
      refine h.quantifier (List.mem_flatMap.mpr ⟨c, hc, ?_⟩) hl
      exact List.mem_append_right _ hq
  unfold finding? at hd
  dsimp only at hd
  split at hd
  · cases hd
  · cases hd
    exact hpoint

theorem ContractPresence.points : ContractPresence.checker.Points x := by
  refine Checker.points_ofRules fun d hd => ?_
  obtain ⟨f, hf, rfl⟩ := List.mem_map.mp hd
  exact h.name (List.mem_filter.mp hf).1

theorem AssertionLabeling.points : AssertionLabeling.checker.Points x := by
  refine Checker.points_ofRules fun d hd => ?_
  obtain ⟨b, hb, hd⟩ := List.mem_flatMap.mp hd
  obtain ⟨a, ha, rfl⟩ := List.mem_map.mp hd
  refine h.block hb (List.mem_cons_of_mem _ (List.mem_flatMap.mpr ⟨a, ?_, List.mem_cons_self⟩))
  exact (List.mem_filter.mp ha).1

theorem Attachment.points : Attachment.checker.Points x := by
  refine Checker.points_ofRules fun d hd => ?_
  obtain ⟨f, hf, hd⟩ := List.mem_flatMap.mp hd
  obtain ⟨b, hb, hd⟩ := List.mem_flatMap.mp hd
  obtain ⟨a, ha, hd⟩ := List.mem_flatMap.mp hd
  obtain ⟨test, htest, hd⟩ := List.mem_filterMap.mp hd
  obtain ⟨p, -, rfl⟩ := Option.map_eq_some_iff.mp hd
  have htoken : test.token.location ∈ b.places :=
    List.mem_cons_of_mem _ (List.mem_flatMap.mpr ⟨a, ha, List.mem_cons_of_mem _
      (List.mem_map_of_mem (token_mem_of_mem_testsAfter htest))⟩)
  have hblock : b ∈ f.blocks := List.mem_append_left _ (List.mem_append_left _ hb)
  have hplace : test.token.location ∈ f.blocks.flatMap AssertionBlock.places :=
    List.mem_flatMap.mpr ⟨b, hblock, htoken⟩
  change x.lexed.source.Marks test.token.location
  exact h.feature hf
    (List.mem_append_left _ (List.mem_append_left _ (List.mem_append_right _ hplace)))

theorem CommandQuery.points : CommandQuery.checker.Points x := by
  refine Checker.points_ofRules fun d hd => ?_
  obtain ⟨c, hc, hd⟩ := List.mem_flatMap.mp hd
  obtain ⟨f, hf, hd⟩ := List.mem_flatMap.mp hd
  have hname : x.lexed.source.Marks f.name.location :=
    h.feature_of_class hc hf (by simp [Feature.places])
  unfold ofFeature at hd
  split at hd
  · cases hd
  · obtain ⟨name, -, hd⟩ := List.mem_filterMap.mp hd
    obtain ⟨t, -, rfl⟩ := Option.map_eq_some_iff.mp hd
    exact hname

theorem OnceClass.points : OnceClass.checker.Points x := by
  refine Checker.points_ofRules fun d hd => ?_
  obtain ⟨c, hc, hd⟩ := List.mem_flatMap.mp hd
  obtain ⟨creator, hcreator, hd⟩ := List.mem_filterMap.mp hd
  obtain ⟨message, -, rfl⟩ := Option.map_eq_some_iff.mp hd
  have hplace : creator.location ∈ (c.generics ++ c.parents ++ c.creators).map Name.location :=
    List.mem_map_of_mem (List.mem_append_right _ hcreator)
  exact h.place c (List.mem_filter.mp hc).1 _ (List.mem_append_left _ (List.mem_append_left _
    (List.mem_cons_of_mem _ hplace)))

theorem EscapeRule.points : EscapeRule.checker.Points x := by
  refine Checker.points_ofRules fun d hd => ?_
  obtain ⟨e, he, rfl⟩ := List.mem_map.mp hd
  change x.lexed.source.Marks e.location
  exact h.scanned (List.mem_filter.mp he).1

theorem FeatureClause.points : FeatureClause.checker.Points x := by
  refine Checker.points_ofRules fun d hd => ?_
  obtain ⟨c, hc, hd⟩ := List.mem_flatMap.mp hd
  obtain ⟨clause, hclause, hd⟩ := List.mem_flatMap.mp hd
  have hpoint : x.lexed.source.Marks clause.location := by
    refine h.place c hc _ (List.mem_append_left _ (List.mem_append_right _ ?_))
    exact List.mem_flatMap.mpr ⟨clause, hclause, List.mem_cons_self⟩
  unfold ofClause at hd
  split at hd
  · obtain ⟨f, hf, rfl⟩ := List.mem_map.mp hd
    have hfeature : f ∈ c.features := List.mem_flatMap.mpr ⟨clause, hclause, hf⟩
    exact h.feature_of_class hc hfeature (by simp [Feature.places, Subject.report])
  · cases List.mem_singleton.mp hd
    exact hpoint
  · split at hd
    · cases hd
    · cases List.mem_singleton.mp hd
      exact hpoint

theorem Layout.points : Layout.checker.Points x := by
  refine Checker.points_ofRules fun d hd => ?_
  rcases List.mem_append.mp hd with hd | hd
  · exact h.scanned (List.mem_filter.mp hd).1
  · exact marks_of_mem_trailingFrom x _ _ _ d hd

theorem HeaderComment.points : HeaderComment.checker.Points x := by
  refine Checker.points_ofRules fun d hd => ?_
  obtain ⟨f, hf, rfl⟩ := List.mem_map.mp hd
  exact h.name (List.mem_filter.mp (List.mem_filter.mp hf).1).1

theorem FileName.points : FileName.checker.Points x := by
  refine Checker.points_ofRules fun d hd => ?_
  unfold check at hd
  split at hd
  · cases hd
  · obtain ⟨c, hc, hd⟩ := List.mem_filterMap.mp hd
    have hname : x.lexed.source.Marks c.name.location :=
      h.place c hc _ (by simp [ClassDecl.places])
    unfold finding? at hd
    dsimp only at hd
    split at hd
    · cases hd
    · cases hd
      exact hname

theorem AgentForm.points : AgentForm.checker.Points x := by
  refine Checker.points_ofRules fun d hd => ?_
  obtain ⟨agent, hagent, hd⟩ := List.mem_flatMap.mp hd
  cases agent with
  | inline location => cases hd
  | call location target feature arguments =>
    rcases List.mem_append.mp hd with hd | hd
    · obtain ⟨a, ha, rfl⟩ := List.mem_map.mp hd
      have hplace : a.location ∈ (arguments.getD []).map AgentArgument.location :=
        List.mem_map_of_mem (List.mem_filter.mp ha).1
      exact h.agent hagent (List.mem_cons_of_mem _ hplace)
    · split at hd
      · cases List.mem_singleton.mp hd
        exact h.agent hagent List.mem_cons_self
      · cases hd

theorem QuantifierForm.points : QuantifierForm.checker.Points x := by
  refine Checker.points_ofRules fun d hd => ?_
  obtain ⟨q, hq, rfl⟩ := List.mem_map.mp hd
  exact h.quantifier (List.mem_filter.mp hq).1 List.mem_cons_self

/-- **Every checker of the registry reports at points.** -/
theorem points_of_mem_registry {c : Checker} (hc : c ∈ registry) : c.Points x := by
  simp only [registry, List.mem_cons, List.not_mem_nil, or_false] at hc
  rcases hc with rfl | rfl | rfl | rfl | rfl | rfl | rfl | rfl | rfl | rfl | rfl | rfl | rfl
  · exact Naming.points h
  · exact ContractPresence.points h
  · exact AssertionLabeling.points h
  · exact Attachment.points h
  · exact CommandQuery.points h
  · exact OnceClass.points h
  · exact EscapeRule.points h
  · exact FeatureClause.points h
  · exact Layout.points h
  · exact HeaderComment.points h
  · exact FileName.points h
  · exact AgentForm.points h
  · exact QuantifierForm.points h

end Checkers

/-! ## 5. Reports -/

/-- The checker, except that it fails where `fails` has a reason for it. -/
def Checker.failing (fails : Checker → Option String) (c : Checker) : Checker :=
  { c with check := fun x => match fails c with
      | none => c.check x
      | some reason => .error reason }

/-- The findings of a checker of the registry, which may fail. -/
theorem owns_of_mem_run {s : Source} {fails : Checker → Option String} {c : Checker}
    (hc : c ∈ registry) {selected : List RuleId} {d : Diagnostic}
    (hd : d ∈ (c.failing fails).run selected ⟨s.lex, s.lex.parse.tree⟩) :
    s.Owns d ∧ (fails c = none → s.Marks d.location) := by
  obtain ⟨found, hfound, haccounts⟩ := honest_of_mem_registry hc ⟨s.lex, s.lex.parse.tree⟩
  have hpoints := points_of_mem_registry s.charted hc found hfound
  unfold Checker.run Checker.failing at hd
  dsimp only at hd
  cases hfails : fails c with
  | none =>
    rw [hfails] at hd
    dsimp only at hd
    rw [hfound] at hd
    have hmem : d ∈ found := (List.mem_filter.mp hd).1
    exact ⟨⟨(haccounts d hmem).path_eq, .inl (hpoints d hmem)⟩, fun _ => hpoints d hmem⟩
  | some reason =>
    rw [hfails] at hd
    cases List.mem_singleton.mp hd
    exact ⟨⟨rfl, .inr rfl⟩, nofun⟩

/-- The findings of a text, whichever checkers fail. -/
theorem owns_of_mem_pending {s : Source} {fails : Checker → Option String}
    {selected : List RuleId} {d : Diagnostic}
    (hd : d ∈ s.lex.parse.diagnostics ++ CheckerRun.diagnostics
      (runCheckers (registry.map (Checker.failing fails)) selected ⟨s.lex, s.lex.parse.tree⟩)) :
    s.Owns d ∧ ((∀ c, fails c = none) → s.Marks d.location) := by
  rcases List.mem_append.mp hd with hd | hd
  · obtain ⟨howns, hpoint⟩ := owns_of_mem_parse hd
    exact ⟨howns, fun _ => hpoint⟩
  · obtain ⟨run, hrun, hd⟩ := List.mem_flatMap.mp hd
    obtain ⟨failing, hfailing, rfl⟩ := List.mem_map.mp hrun
    obtain ⟨c, hc, rfl⟩ := List.mem_map.mp (List.mem_filter.mp hfailing).1
    obtain ⟨howns, hpoint⟩ := owns_of_mem_run hc hd
    exact ⟨howns, fun hnone => hpoint (hnone c)⟩

/-- Checkers none of which fails are the checkers themselves. -/
theorem map_failing_of_none {fails : Checker → Option String} (h : ∀ c, fails c = none)
    (cs : List Checker) : cs.map (Checker.failing fails) = cs := by
  refine List.map_id'' (fun c => ?_) cs
  unfold Checker.failing
  rw [h c]

/-- **Reports are in canonical form.**  Whatever the text, the path, the selected rules and the
threshold, and whichever checkers fail, a report increases strictly in line, column, rule and
message, and each finding carries the path.  Where no checker fails, each finding is at the location
of an offset of the text, and the offsets do not decrease. -/
theorem report_canonical (raw path : String) (policy : Policy)
    (fails : Checker → Option String) :
    let s := Source.ofString raw path
    let report :=
      (s.analyseWith (registry.map (Checker.failing fails)) policy).collected.diagnostics
    (report.Pairwise fun a b => a.key < b.key) ∧
      (∀ d ∈ report, d.path = path) ∧
      ((∀ c, fails c = none) →
        report = (s.analyse policy).collected.diagnostics ∧
        (∀ d ∈ report, 0 ≤ d.location.offset ∧ d.location.offset ≤ s.length ∧
          d.location = s.location d.location.offset) ∧
        report.Pairwise fun a b => a.location.offset ≤ b.location.offset) := by
  intro s report
  have howns : ∀ d ∈ report, s.Owns d ∧ ((∀ c, fails c = none) → s.Marks d.location) :=
    fun d hd => owns_of_mem_pending (Collection.mem_pending_of_mem_close hd)
  have hstrict : report.Pairwise fun a b => a.key < b.key :=
    Collection.pairwise_key_close fun d hd => (owns_of_mem_pending hd).1
  refine ⟨hstrict, fun d hd => (howns d hd).1.path_eq, fun hnone => ⟨?_, ?_, ?_⟩⟩
  · have hregistry := map_failing_of_none hnone registry
    simp only [report, Source.analyse, hregistry]
  · intro d hd
    exact ((howns d hd).2 hnone).coherent
  · refine hstrict.imp_of_mem fun {a b} ha hb hab => ?_
    exact ((howns a ha).2 hnone).offset_le ((howns b hb).2 hnone)
      (Diagnostic.not_before_of_key_lt hab)

end ContractLint
