/-
# Assertions without a label

An assertion without a label is to be reported once, at its place.  Blocks inside a body nest and
overlap, and a declaration with several names repeats its blocks for each of them, so the tree may
hold many assertions at one place.  What keeps them apart:

* assertions of ONE kind at one place are one assertion, because an entry depends only on the tokens
  from its first one on, so the removal of repeats leaves one finding;
* assertions of two kinds stand at different places, because the spans of preconditions, bodies,
  postconditions and class invariants are different stretches of the text.

The exception is inside a body: an assertion of a check may also be one of a loop invariant, and then
it is reported twice, under two names.  That happens only where the loop invariant has run over the
`end` of its loop, for `end` is none of the words that stop it (`unlabeled_assertions_reported`,
`unlabeled_assertion_reported_twice`).

`Settled` is what is shown of every part of a text, from spans up to the whole.
-/
import ContractLint.Proofs.RuleReport
import ContractLint.Proofs.SpanEntry

namespace ContractLint

/-! ## 1. Entries that agree -/

/-- An assertion with the kind of the block that it stands in. -/
abbrev Entry := AssertionKind × Assertion

/-- The assertions of a block as entries. -/
def AssertionBlock.entries (b : AssertionBlock) : List Entry :=
  b.assertions.map fun a => (b.kind, a)

/-- Two entries at one place agree: they are the same, or one is of a check and one of a loop
invariant, and then `overrun` holds of the place. -/
def Entry.Agree (overrun : Location → Prop) (x y : Entry) : Prop :=
  x = y ∨ (x.1 = .check ∧ y.1 = .loopInvariant ∨ x.1 = .loopInvariant ∧ y.1 = .check) ∧
    overrun x.2.location

/-- The entries `xs` stand at tokens of `ts`, and those at one place agree. -/
structure Settled (overrun : Location → Prop) (ts : List Token) (xs : List Entry) : Prop where
  within : ∀ x ∈ xs, x.2.location ∈ ts.map Token.location
  agree : ∀ x ∈ xs, ∀ y ∈ xs, x.2.location = y.2.location → x.Agree overrun y

namespace Settled

variable {overrun overrun' : Location → Prop} {ts us : List Token} {xs ys : List Entry}

theorem nil (overrun : Location → Prop) (ts : List Token) : Settled overrun ts [] where
  within := fun _ hx => nomatch hx
  agree := fun _ hx => nomatch hx

theorem mono (h : Settled overrun ts xs) (hts : ts ⊆ us) : Settled overrun us xs :=
  ⟨fun x hx => List.map_subset _ hts (h.within x hx), h.agree⟩

theorem subset (h : Settled overrun ts xs) (hys : ys ⊆ xs) : Settled overrun ts ys :=
  ⟨fun x hx => h.within x (hys hx), fun x hx y hy => h.agree x (hys hx) y (hys hy)⟩

theorem imp (h : Settled overrun ts xs) (himp : ∀ l, overrun l → overrun' l) :
    Settled overrun' ts xs := by
  refine ⟨h.within, fun x hx y hy heq => ?_⟩
  rcases h.agree x hx y hy heq with rfl | ⟨hkinds, hoverrun⟩
  · exact .inl rfl
  · exact .inr ⟨hkinds, himp _ hoverrun⟩

/-- Entries of different stretches stand at different places. -/
theorem append (hts : Settled overrun ts xs) (hus : Settled overrun us ys)
    (hnodup : ((ts ++ us).map Token.location).Nodup) : Settled overrun (ts ++ us) (xs ++ ys) := by
  rw [List.map_append] at hnodup
  have hdisjoint := (List.nodup_append'.mp hnodup).2.2
  constructor
  · intro x hx
    rw [List.map_append]
    rcases List.mem_append.mp hx with hx | hx
    · exact List.mem_append_left _ (hts.within x hx)
    · exact List.mem_append_right _ (hus.within x hx)
  · intro x hx y hy heq
    rcases List.mem_append.mp hx with hx | hx <;> rcases List.mem_append.mp hy with hy | hy
    · exact hts.agree x hx y hy heq
    · exact absurd (heq ▸ hus.within y hy) (hdisjoint (hts.within x hx))
    · exact absurd (hus.within x hx) (hdisjoint (heq ▸ hts.within y hy))
    · exact hus.agree x hx y hy heq

end Settled

/-! ## 2. Spans and bodies -/

theorem Cursor.take_eq (c : Cursor) (n : Nat) : c.take n = c.tokens.take n :=
  List.map_take

section Spans

variable (overrun : Location → Prop)

/-- Entries of one span at one place are the same. -/
theorem settled_span (stops hard : List Keyword) (kind : AssertionKind) {ts : List Token}
    (hnodup : (ts.map Token.location).Nodup) :
    Settled overrun (ts.take (spanLength stops hard ts))
      ((assertions (ts.take (spanLength stops hard ts))).map fun a => (kind, a)) := by
  constructor
  · intro x hx
    obtain ⟨a, ha, rfl⟩ := List.mem_map.mp hx
    exact places_assertions _ (List.mem_flatMap.mpr ⟨a, ha, List.mem_cons_self⟩)
  · intro x hx y hy heq
    obtain ⟨a, ha, rfl⟩ := List.mem_map.mp hx
    obtain ⟨b, hb, rfl⟩ := List.mem_map.mp hy
    obtain ⟨pre, t, rest, hts, -, -, rfl⟩ := exists_entry stops hard ha
    obtain ⟨pre', u, rest', hts', -, -, rfl⟩ := exists_entry stops hard hb
    dsimp only at heq
    rw [location_entryAt, location_entryAt] at heq
    obtain ⟨-, rfl, rfl⟩ := split_unique (hts ▸ hnodup) (hts.symm.trans hts') heq
    exact .inl rfl

theorem settled_readBlock (g : BlockGrammar) {c : Cursor}
    (hnodup : (c.tokens.map Token.location).Nodup) :
    Settled overrun (c.take (readBlock g c).taken) (readBlock g c).value.entries := by
  unfold readBlock AssertionBlock.entries
  dsimp only
  generalize c.next.optKeyword g.extension = extended
  rw [c.take_add, (c.drop (1 + extended)).take_eq]
  refine (settled_span overrun g.stops [.kwFeature] g.kind ?_).mono (List.subset_append_right _ _)
  exact hnodup.sublist ((c.sublist_tokens_drop _).map _)

theorem settled_readBlock? (g : BlockGrammar) (keyword : Keyword) {c : Cursor}
    (hnodup : (c.tokens.map Token.location).Nodup) :
    Settled overrun (c.take (readBlock? g keyword c).2)
      ((readBlock? g keyword c).1.toList.flatMap AssertionBlock.entries) := by
  unfold readBlock?
  split
  · simpa using settled_readBlock overrun g hnodup
  · exact .nil _ _

/-- A loop invariant of a body that overruns its loop has an assertion at this place. -/
def OverrunAt (body : List Token) (l : Location) : Prop :=
  ∃ b ∈ innerBlocks body, b.kind = .loopInvariant ∧ b.Overruns body ∧
    l ∈ b.assertions.map Assertion.location

/-- Assertions of one kind at one place of a body are the same. -/
theorem eq_of_innerBlocks {body : List Token} (hnodup : (body.map Token.location).Nodup)
    {b l : AssertionBlock} (hb : b ∈ innerBlocks body) (hl : l ∈ innerBlocks body)
    (hkind : b.kind = l.kind) {x y : Assertion} (hx : x ∈ b.assertions) (hy : y ∈ l.assertions)
    (heq : x.location = y.location) : x = y := by
  obtain ⟨before, opening, pre, t, rest, hbody, -, -, -, rfl⟩ := exists_inner_entry hb hx
  obtain ⟨before', opening', pre', u, rest', hbody', -, -, -, rfl⟩ := exists_inner_entry hl hy
  rw [location_entryAt, location_entryAt] at heq
  have hleft : body = (before ++ opening :: pre) ++ t :: rest := by simpa using hbody
  have hright : body = (before' ++ opening' :: pre') ++ u :: rest' := by simpa using hbody'
  obtain ⟨-, rfl, rfl⟩ := split_unique (hleft ▸ hnodup) (hleft.symm.trans hright) heq
  rw [hkind]

/-- The blocks of a body are loop invariants and checks. -/
theorem kind_of_mem_innerBlocks {body : List Token} {b : AssertionBlock}
    (hb : b ∈ innerBlocks body) : b.kind = .check ∨ b.kind = .loopInvariant := by
  obtain ⟨before, t, after, -, -, h | h⟩ := exists_opensAt [] body hb
  · exact .inl h.1
  · exact .inr h.1

/-- **Entries of a body at one place are the same, or a loop invariant overruns its loop.** -/
theorem settled_innerBlocks {body : List Token} (hnodup : (body.map Token.location).Nodup) :
    Settled (OverrunAt body) body ((innerBlocks body).flatMap AssertionBlock.entries) := by
  constructor
  · intro x hx
    obtain ⟨b, hb, hx⟩ := List.mem_flatMap.mp hx
    obtain ⟨a, ha, rfl⟩ := List.mem_map.mp hx
    refine places_innerBlocksFrom {} body (List.mem_flatMap.mpr ⟨b, hb, ?_⟩)
    exact List.mem_cons_of_mem _ (List.mem_flatMap.mpr ⟨a, ha, List.mem_cons_self⟩)
  · intro x hx y hy heq
    obtain ⟨b, hb, hx⟩ := List.mem_flatMap.mp hx
    obtain ⟨l, hl, hy⟩ := List.mem_flatMap.mp hy
    obtain ⟨a, ha, rfl⟩ := List.mem_map.mp hx
    obtain ⟨a', ha', rfl⟩ := List.mem_map.mp hy
    dsimp only at heq
    by_cases hsame : b.kind = l.kind
    · exact .inl (Prod.ext hsame (eq_of_innerBlocks hnodup hb hl hsame ha ha' heq))
    have hplace := List.mem_map_of_mem (f := Assertion.location) ha
    have hplace' := List.mem_map_of_mem (f := Assertion.location) ha'
    rcases kind_of_mem_innerBlocks hb with hk | hk <;>
      rcases kind_of_mem_innerBlocks hl with hk' | hk'
    · exact absurd (hk.trans hk'.symm) hsame
    · exact .inr ⟨.inl ⟨hk, hk'⟩, l, hl, hk',
        overruns_of_shared hnodup hb hl hk hk' ha ha' heq, heq ▸ hplace'⟩
    · exact .inr ⟨.inr ⟨hk, hk'⟩, b, hb, hk,
        overruns_of_shared hnodup hl hb hk' hk ha' ha heq.symm, hplace⟩
    · exact absurd (hk.trans hk'.symm) hsame

end Spans

/-! ## 3. From routines to the text -/

/-- The entries of a routine: those of its precondition, of its body and of its postcondition. -/
def Routine.entries (r : Routine) : List Entry :=
  r.precondition.toList.flatMap AssertionBlock.entries ++
    ((innerBlocks r.body.tokens).flatMap AssertionBlock.entries ++
      r.postcondition.toList.flatMap AssertionBlock.entries)

theorem settled_readRoutine {c : Cursor} {routine : Taken Routine}
    (h : readRoutine c = .ok routine) (hnodup : (c.tokens.map Token.location).Nodup) :
    Settled (OverrunAt routine.value.body.tokens) (c.take routine.taken) routine.value.entries := by
  obtain ⟨n₁, n₂, n₄, n₅, body, hrequire, -, hbody, hvalue, hensure, -, -, htaken⟩ :=
    readRoutine_cases h
  have hdrop (n : Nat) : ((c.drop n).tokens.map Token.location).Nodup :=
    hnodup.sublist ((c.sublist_tokens_drop n).map _)
  have htake (n : Nat) : ((c.take n).map Token.location).Nodup :=
    hnodup.sublist ((c.sublist_take n).map _)
  -- the three parts stand in stretches of the routine that follow each other
  have hpre := settled_readBlock? (OverrunAt routine.value.body.tokens) .precondition .kwRequire
    hnodup
  have hpost := settled_readBlock? (OverrunAt routine.value.body.tokens) .postcondition .kwEnsure
    (hdrop (n₁ + n₂ + body.taken))
  have hinner : Settled (OverrunAt routine.value.body.tokens)
      ((c.drop (n₁ + n₂)).take body.taken)
      ((innerBlocks routine.value.body.tokens).flatMap AssertionBlock.entries) := by
    rw [hvalue]
    have hsublist := sublist_readBody hbody
    refine (settled_innerBlocks ?_).mono hsublist.subset
    exact (hdrop (n₁ + n₂)).sublist ((hsublist.trans (Cursor.sublist_take _ _)).map _)
  rw [hrequire] at hpre
  rw [hensure] at hpost
  have hsplit : c.take routine.taken = c.take n₁ ++ ((c.drop n₁).take n₂ ++
      ((c.drop (n₁ + n₂)).take body.taken ++ ((c.drop (n₁ + n₂ + body.taken)).take n₄ ++
        (c.drop (n₁ + n₂ + body.taken + n₄)).take (n₅ + 1)))) := by
    rw [htaken, Nat.add_assoc _ n₅ 1, c.take_add (n₁ + n₂ + body.taken + n₄),
      c.take_add (n₁ + n₂ + body.taken), c.take_add (n₁ + n₂), c.take_add n₁]
    simp only [List.append_assoc]
  have hall := htake routine.taken
  rw [hsplit] at hall ⊢
  have hrest : (((c.drop n₁).take n₂ ++
      ((c.drop (n₁ + n₂)).take body.taken ++ ((c.drop (n₁ + n₂ + body.taken)).take n₄ ++
        (c.drop (n₁ + n₂ + body.taken + n₄)).take (n₅ + 1)))).map Token.location).Nodup :=
    hall.sublist ((List.sublist_append_right _ _).map _)
  refine hpre.append (Settled.mono ?_ (List.subset_append_right _ _)) hall
  refine hinner.append (hpost.mono (List.subset_append_left _ _)) ?_
  exact hrest.sublist ((List.sublist_append_right _ _).map _)

/-- The entries of a feature. -/
def Feature.entries (f : Feature) : List Entry :=
  f.blocks.flatMap AssertionBlock.entries

/-- A loop invariant of one of the features overruns its loop and has an assertion at this place. -/
def Feature.OverrunAmong (fs : List Feature) (l : Location) : Prop :=
  ∃ f ∈ fs, ∃ b ∈ f.loopInvariants, b.Overruns f.body.tokens ∧
    l ∈ b.assertions.map Assertion.location

/-- **The features of a declaration are settled in its items.**  Each of them has the entries of the
one routine that they share. -/
theorem settled_readDeclaration {first : Item} {c : Cursor} {d : Taken Declaration}
    (h : readDeclaration first c = .ok d) (hnodup : (c.tokens.map Token.location).Nodup) :
    Settled (Feature.OverrunAmong d.value.features) (c.take d.taken)
      (d.value.features.flatMap Feature.entries) := by
  obtain ⟨signature, -, n, -, last, hparts⟩ := readDeclaration_parts h
  have hbare (hbare : ∀ f ∈ d.value.features, f.entries = []) :
      Settled (Feature.OverrunAmong d.value.features) (c.take d.taken)
        (d.value.features.flatMap Feature.entries) := by
    rw [List.flatMap_eq_nil_iff.mpr hbare]
    exact .nil _ _
  rcases hparts with ⟨is, -, hd, -⟩ | ⟨-, hd, -⟩ | ⟨routine, hroutine, hd, htaken⟩
  · refine hbare fun f hf => ?_
    rw [hd] at hf
    obtain ⟨name, -, rfl⟩ := List.mem_map.mp hf
    rfl
  · refine hbare fun f hf => ?_
    rw [hd] at hf
    obtain ⟨name, -, rfl⟩ := List.mem_map.mp hf
    rfl
  · have hshared : ∀ f ∈ d.value.features, f.body = routine.value.body ∧
        f.innerBlocks = innerBlocks routine.value.body.tokens ∧
        f.entries ⊆ routine.value.entries := by
      intro f hf
      rw [hd] at hf
      obtain ⟨name, -, rfl⟩ := List.mem_map.mp hf
      refine ⟨rfl, rfl, fun x hx => ?_⟩
      simp only [Feature.entries, Feature.blocks, Routine.entries, List.flatMap_append,
        List.mem_append] at hx ⊢
      tauto
    have hsettled := settled_readRoutine hroutine
      (hnodup.sublist ((c.sublist_tokens_drop n).map _))
    have hwithin : (c.drop n).take routine.taken ⊆ c.take d.taken := by
      rw [htaken, c.take_add]
      exact List.subset_append_right _ _
    have hsubset : d.value.features.flatMap Feature.entries ⊆ routine.value.entries :=
      flatMap_subset fun f hf => (hshared f hf).2.2
    cases hfeatures : d.value.features with
    | nil => exact .nil _ _
    | cons f fs =>
      rw [← hfeatures]
      refine ((hsettled.subset hsubset).mono hwithin).imp ?_
      rintro l ⟨b, hb, hkind, hoverruns, hl⟩
      have hf : f ∈ d.value.features := hfeatures ▸ List.mem_cons_self
      obtain ⟨hbody, hinner, -⟩ := hshared f hf
      refine ⟨f, hf, b, List.mem_filter.mpr ⟨hinner ▸ hb, by simp [hkind]⟩, ?_, hl⟩
      rwa [hbody]

/-- The entries of a portion. -/
def Portion.entries : Portion → List Entry
  | declaration d => d.features.flatMap Feature.entries
  | invariant i => i.block.entries

theorem Portion.ReadIn.settled {c : Cursor} {us : List Token} {p : Portion} (h : ReadIn c us p)
    (hnodup : (c.tokens.map Token.location).Nodup) :
    Settled (Feature.OverrunAmong p.features) us p.entries := by
  have hdrop (n : Nat) : ((c.drop n).tokens.map Token.location).Nodup :=
    hnodup.sublist ((c.sublist_tokens_drop n).map _)
  cases h with
  | declaration h => exact settled_readDeclaration h (hdrop _)
  | invariant n => exact settled_readBlock _ .classInvariant (hdrop n)

/-- **Portions that follow each other are settled together.** -/
theorem Arranged.settled {c : Cursor} {overrun : Location → Prop} {ts : List Token}
    {ps : List Portion} (h : Arranged (Portion.ReadIn c) ts ps)
    (hc : (c.tokens.map Token.location).Nodup) (hts : (ts.map Token.location).Nodup)
    (hoverrun : ∀ p ∈ ps, ∀ l, Feature.OverrunAmong p.features l → overrun l) :
    Settled overrun ts (ps.flatMap Portion.entries) := by
  induction h with
  | nil ts => exact .nil _ ts
  | @cons us rest p ps gap hp h ih =>
    have hbehind := hts.sublist ((List.sublist_append_right gap (us ++ rest)).map _)
    have hrest := hbehind.sublist ((List.sublist_append_right us rest).map _)
    have hfirst := (hp.settled hc).imp (hoverrun p List.mem_cons_self)
    have hlater := ih hrest fun q hq => hoverrun q (List.mem_cons_of_mem p hq)
    exact (hfirst.append hlater hbehind).mono (List.subset_append_right _ _)

namespace Source

/-- The entries of a text: the assertions of its tree, each with the kind of its block. -/
def entries (s : Source) : List Entry :=
  s.lex.parse.tree.blocks.flatMap AssertionBlock.entries

/-- Invariants that count as one have the entries of all of them. -/
theorem entries_merge? {is : List Invariant} (his : ∀ i ∈ is, i.block.kind = .classInvariant) :
    (Invariant.merge? is).toList.flatMap (·.block.entries) ⊆ is.flatMap (·.block.entries) := by
  cases is with
  | nil => exact List.nil_subset _
  | cons i is =>
    intro x hx
    simp only [Invariant.merge?, Option.toList_some, List.flatMap_singleton,
      AssertionBlock.entries, List.mem_map, List.mem_flatMap] at hx ⊢
    obtain ⟨a, ⟨j, hj, ha⟩, rfl⟩ := hx
    refine ⟨j, hj, a, ha, ?_⟩
    rw [his j hj, his i List.mem_cons_self]

/-- The entries of a text are those of its portions. -/
theorem entries_subset {s : Source} {is : List Invariant} {ps : List Portion}
    (hinvariant : (readClass (Cursor.ofLexed s.lex)).value.invariant = Invariant.merge? is)
    (hps : Arranged (Portion.ReadIn (Cursor.ofLexed s.lex)) (Cursor.ofLexed s.lex).tokens ps)
    (hfeatures : ps.flatMap Portion.features =
      (readClass (Cursor.ofLexed s.lex)).value.features)
    (his : ps.filterMap Portion.invariant? = is) :
    s.entries ⊆ ps.flatMap Portion.entries := by
  have hkind : ∀ i ∈ is, i.block.kind = .classInvariant := by
    intro i hi
    rw [← his] at hi
    obtain ⟨p, hp, hsome⟩ := List.mem_filterMap.mp hi
    obtain ⟨us, -, hread⟩ := hps.exists_stretch p hp
    cases hread with
    | declaration h => cases hsome
    | invariant n =>
      cases hsome
      rfl
  intro x hx
  simp only [entries, Lexed.parse, Tree.blocks, List.flatMap_singleton, List.flatMap_append,
    List.mem_append] at hx
  rcases hx with hx | hx
  · obtain ⟨b, hb, hx⟩ := List.mem_flatMap.mp hx
    obtain ⟨f, hf, hb⟩ := List.mem_flatMap.mp hb
    rw [← hfeatures] at hf
    obtain ⟨p, hp, hf⟩ := List.mem_flatMap.mp hf
    refine List.mem_flatMap.mpr ⟨p, hp, ?_⟩
    cases p with
    | declaration d =>
      exact List.mem_flatMap.mpr ⟨f, hf, List.mem_flatMap.mpr ⟨b, hb, hx⟩⟩
    | invariant i => cases hf
  · rw [hinvariant, List.flatMap_map] at hx
    obtain ⟨i, hi, hx⟩ := List.mem_flatMap.mp (entries_merge? hkind hx)
    rw [← his] at hi
    obtain ⟨p, hp, hsome⟩ := List.mem_filterMap.mp hi
    refine List.mem_flatMap.mpr ⟨p, hp, ?_⟩
    cases p with
    | declaration d => cases hsome
    | invariant j =>
      cases hsome
      exact hx

/-- **The entries of a text are settled in its tokens.** -/
theorem settled_entries (s : Source) :
    Settled (Feature.OverrunAmong s.features) (Cursor.ofLexed s.lex).tokens s.entries := by
  have hnodup := s.nodup_location_tokens
  obtain ⟨is, hinvariant, ps, hps, hfeatures, his⟩ := portioned_readClass (Cursor.ofLexed s.lex)
  refine Settled.subset (hps.settled hnodup hnodup ?_)
    (entries_subset hinvariant hps hfeatures his)
  rintro p hp l ⟨f, hf, hoverruns⟩
  refine ⟨f, ?_, hoverruns⟩
  rw [features_eq, ← hfeatures]
  exact List.mem_flatMap.mpr ⟨p, hp, hf⟩

/-- The entries without a label at one place. -/
def Unlabeled (s : Source) (l : Location) (x : Entry) : Prop :=
  x ∈ s.entries ∧ x.2.label = none ∧ x.2.location = l

/-- At this place stand both an unlabeled assertion of a check and one of a loop invariant. -/
def Doubled (s : Source) (l : Location) : Prop :=
  (∃ x, s.Unlabeled l x ∧ x.1 = .check) ∧ ∃ x, s.Unlabeled l x ∧ x.1 = .loopInvariant

end Source

/-! ## 4. Findings -/

namespace AssertionLabeling

/-- What the rule finds: one finding for each entry without a label. -/
theorem mem_check_iff {s : Source} {d : Diagnostic} :
    d ∈ check ⟨s.lex, s.lex.parse.tree⟩ ↔
      ∃ l x, s.Unlabeled l x ∧ d = finding ⟨s.lex, s.lex.parse.tree⟩ x.1 x.2 := by
  constructor
  · intro hd
    obtain ⟨b, hb, hd⟩ := List.mem_flatMap.mp hd
    obtain ⟨a, ha, rfl⟩ := List.mem_map.mp hd
    obtain ⟨ha, hlabel⟩ := List.mem_filter.mp ha
    refine ⟨a.location, (b.kind, a), ⟨?_, Option.isNone_iff_eq_none.mp hlabel, rfl⟩, rfl⟩
    exact List.mem_flatMap.mpr ⟨b, hb, List.mem_map_of_mem ha⟩
  · rintro ⟨l, x, ⟨hx, hlabel, -⟩, rfl⟩
    obtain ⟨b, hb, hx⟩ := List.mem_flatMap.mp hx
    obtain ⟨a, ha, rfl⟩ := List.mem_map.mp hx
    refine List.mem_flatMap.mpr ⟨b, hb, List.mem_map_of_mem (List.mem_filter.mpr ⟨ha, ?_⟩)⟩
    exact Option.isNone_iff_eq_none.mpr hlabel

/-- Findings about a check and about a loop invariant are no repeats of each other. -/
theorem identity_ne (s : Subject) (a b : Assertion) :
    (finding s .check a).identity ≠ (finding s .loopInvariant b).identity := by
  intro h
  have hmessage := congrArg (fun i => i.2.2.2.toList[10]?) h
  simp [finding, Subject.report, Diagnostic.identity, AssertionKind.label, toString] at hmessage

/-- What is left of the findings at one place when repeats are removed, by what tells findings
apart. -/
def identitiesAt (s : Source) (l : Location) : List (String × RuleId × Location × String) :=
  ((Diagnostic.dedupe (check ⟨s.lex, s.lex.parse.tree⟩)).filter (·.location = l)).map
    Diagnostic.identity

theorem nodup_identitiesAt (s : Source) (l : Location) : (identitiesAt s l).Nodup :=
  List.pairwise_map.mpr ((Diagnostic.pairwise_dedupe _).filter _)

theorem mem_identitiesAt_iff {s : Source} {l : Location}
    {i : String × RuleId × Location × String} : i ∈ identitiesAt s l ↔
      ∃ x, s.Unlabeled l x ∧ i = (finding ⟨s.lex, s.lex.parse.tree⟩ x.1 x.2).identity := by
  constructor
  · intro hi
    obtain ⟨d, hd, rfl⟩ := List.mem_map.mp hi
    obtain ⟨hd, hlocation⟩ := List.mem_filter.mp hd
    obtain ⟨l', x, hx, rfl⟩ := mem_check_iff.mp (Diagnostic.mem_of_mem_dedupe hd)
    have hplace : x.2.location = l := of_decide_eq_true hlocation
    exact ⟨x, ⟨hx.1, hx.2.1, hplace⟩, rfl⟩
  · rintro ⟨x, hx, rfl⟩
    obtain ⟨d, hd, hidentity⟩ := Diagnostic.exists_mem_dedupe (mem_check_iff.mpr ⟨l, x, hx, rfl⟩)
    have hlocation : d.location = l :=
      (congrArg (fun i => i.2.2.1) hidentity).trans hx.2.2
    exact List.mem_map.mpr ⟨d, List.mem_filter.mpr ⟨hd, decide_eq_true hlocation⟩, hidentity⟩

/-- As many findings are left at a place as it has identities. -/
theorem countP_eq_of_perm {s : Source} {l : Location}
    (is : List (String × RuleId × Location × String)) (h : (identitiesAt s l).Perm is) :
    (Diagnostic.dedupe (check ⟨s.lex, s.lex.parse.tree⟩)).countP (fun d => d.location = l) =
      is.length := by
  rw [List.countP_eq_length_filter, ← h.length_eq]
  exact (List.length_map _).symm

/-- **One finding is left where no check shares an assertion with a loop invariant.** -/
theorem countP_of_not_doubled {s : Source} {l : Location} {x : Entry} (hx : s.Unlabeled l x)
    (hsingle : ¬ s.Doubled l) :
    (Diagnostic.dedupe (check ⟨s.lex, s.lex.parse.tree⟩)).countP (fun d => d.location = l) = 1 := by
  refine countP_eq_of_perm [(finding ⟨s.lex, s.lex.parse.tree⟩ x.1 x.2).identity] ?_
  refine (List.perm_ext_iff_of_nodup (nodup_identitiesAt s l) (List.nodup_singleton _)).mpr ?_
  intro i
  rw [mem_identitiesAt_iff, List.mem_singleton]
  constructor
  · rintro ⟨y, hy, rfl⟩
    rcases s.settled_entries.agree y hy.1 x hx.1 (hy.2.2.trans hx.2.2.symm) with
      rfl | ⟨⟨hk, hk'⟩ | ⟨hk, hk'⟩, -⟩
    · rfl
    · exact absurd ⟨⟨y, hy, hk⟩, x, hx, hk'⟩ hsingle
    · exact absurd ⟨⟨x, hx, hk'⟩, y, hy, hk⟩ hsingle
  · rintro rfl
    exact ⟨x, hx, rfl⟩

/-- **Two findings are left where one does**, and a loop invariant has overrun its loop there. -/
theorem countP_of_doubled {s : Source} {l : Location} (hdoubled : s.Doubled l) :
    (Diagnostic.dedupe (check ⟨s.lex, s.lex.parse.tree⟩)).countP (fun d => d.location = l) = 2 ∧
      Feature.OverrunAmong s.features l := by
  obtain ⟨⟨⟨k, a⟩, hx, rfl⟩, ⟨k', b⟩, hy, rfl⟩ := hdoubled
  have hagree {z w : Entry} (hz : s.Unlabeled l z) (hw : s.Unlabeled l w) :
      z.Agree (Feature.OverrunAmong s.features) w :=
    s.settled_entries.agree z hz.1 w hw.1 (hz.2.2.trans hw.2.2.symm)
  constructor
  · refine countP_eq_of_perm [(finding ⟨s.lex, s.lex.parse.tree⟩ .check a).identity,
      (finding ⟨s.lex, s.lex.parse.tree⟩ .loopInvariant b).identity] ?_
    refine (List.perm_ext_iff_of_nodup (nodup_identitiesAt s l) ?_).mpr fun i => ?_
    · simpa using identity_ne ⟨s.lex, s.lex.parse.tree⟩ a b
    rw [mem_identitiesAt_iff, List.mem_cons, List.mem_singleton]
    constructor
    · -- a third entry would agree with both, and no kind does with both but these two
      rintro ⟨z, hz, rfl⟩
      rcases hagree hz hx with rfl | ⟨⟨hk, hk'⟩ | ⟨hk, hk'⟩, -⟩
      · exact .inl rfl
      · exact nomatch hk'
      · rcases hagree hz hy with rfl | ⟨⟨hl, hl'⟩ | ⟨hl, hl'⟩, -⟩
        · exact .inr rfl
        · exact nomatch hk.symm.trans hl
        · exact nomatch hl'
    · rintro (rfl | rfl)
      · exact ⟨_, hx, rfl⟩
      · exact ⟨_, hy, rfl⟩
  · rcases hagree hx hy with heq | ⟨-, hoverrun⟩
    · exact nomatch congrArg Prod.fst heq
    · exact hx.2.2 ▸ hoverrun

end AssertionLabeling

/-- **Unlabeled assertions are reported exactly once, unless a loop invariant overruns its loop.**
With the rule selected and nothing suppressed, the report of every text shows findings of the rule
only at unlabeled assertions of the tree.  At the place of each of them it shows one, except where an
unlabeled assertion of a check is also one of a loop invariant.  There it shows two, and the span of
a loop invariant with an assertion at that place contains the `end` of its loop. -/
theorem unlabeled_assertions_reported (raw path : String) (policy : Policy)
    (hselected : .assertionLabeling ∈ policy.rules)
    (hcovered : ((Source.ofString raw path).analyse policy).collected.suppressed = 0) :
    let s := Source.ofString raw path
    let report := (s.analyse policy).collected.diagnostics
    let shown (l : Location) :=
      report.countP fun d => d.location = l && d.rule = .assertionLabeling
    (∀ d ∈ report, d.rule = .assertionLabeling → ∃ x, s.Unlabeled d.location x) ∧
    (∀ l x, s.Unlabeled l x → ¬ s.Doubled l → shown l = 1) ∧
    ∀ l, s.Doubled l → shown l = 2 ∧ Feature.OverrunAmong s.features l := by
  intro s report shown
  have hc : AssertionLabeling.checker ∈ registry := by simp [registry]
  have hshown (l : Location) : shown l = _ :=
    countP_diagnostics_analyse hc hselected hcovered fun d => d.location = l
  refine ⟨fun d hd hrule => ?_, fun l x hx hsingle => ?_, fun l hdoubled => ?_⟩
  · have hd := mem_check_of_mem_analyse hc hselected hcovered hd hrule
    obtain ⟨l, x, hx, rfl⟩ := AssertionLabeling.mem_check_iff.mp hd
    exact ⟨x, hx.1, hx.2.1, rfl⟩
  · rw [hshown]
    exact AssertionLabeling.countP_of_not_doubled hx hsingle
  · rw [hshown]
    exact AssertionLabeling.countP_of_doubled hdoubled

/-- Two names of one declaration, so that its tree holds every assertion twice: a precondition, a loop
invariant, and a check inside the loop.  Each place is reported once. -/
theorem unlabeled_assertions_reported_names :
    let s := Source.ofString
      "class A feature f, g require p do from invariant q until r loop check t end end end end" "a.e"
    let report := (s.analyse {}).collected.diagnostics
    let found : List (AssertionKind × Option String × Int) :=
      [(.precondition, none, 30), (.loopInvariant, none, 50), (.check, none, 71)]
    RuleId.assertionLabeling ∈ ({} : Policy).rules ∧ (s.analyse {}).collected.suppressed = 0 ∧
      s.entries.map (fun x => (x.1, x.2.label, x.2.location.column)) = found ++ found ∧
      ∀ x ∈ s.entries, (report.countP fun d =>
        d.location = x.2.location && d.rule = .assertionLabeling) = 1 := by
  intro s report found
  have hselected : RuleId.assertionLabeling ∈ ({} : Policy).rules := by decide
  have hstages : (suppressions s.lex.tokens,
      s.entries.map fun x => (x.1, x.2.label, x.2.location.column)) = ([], found ++ found) := by
    cbv
  obtain ⟨hnone, hentries⟩ := by simpa only [Prod.mk.injEq] using hstages
  have hcovered : (s.analyse {}).collected.suppressed = 0 := Source.suppressed_eq_zero {} hnone
  have hfound : ∀ x ∈ s.entries, (x.1, x.2.label, x.2.location.column) ∈ found ++ found :=
    fun x hx => hentries ▸ List.mem_map_of_mem hx
  have hunlabeled : ∀ e ∈ found ++ found, e.2.1 = none := by decide
  have hapart : ∀ e ∈ found ++ found, ∀ e' ∈ found ++ found,
      e.1 = .check → e'.1 = .loopInvariant → e.2.2 ≠ e'.2.2 := by decide
  refine ⟨hselected, hcovered, hentries, fun x hx => ?_⟩
  refine (unlabeled_assertions_reported _ "a.e" {} hselected hcovered).2.1 x.2.location x
    ⟨hx, hunlabeled _ (hfound x hx), rfl⟩ ?_
  rintro ⟨⟨y, hy, hcheck⟩, z, hz, hloop⟩
  refine hapart _ (hfound y hy.1) _ (hfound z hz.1) hcheck hloop ?_
  exact congrArg Location.column (hy.2.2.trans hz.2.2.symm)

/-- **An assertion is reported twice.**  The invariant of the loop has no `until` behind it and runs on
over the `end` of the loop, so the second assertion of the check is one of the invariant as well. -/
theorem unlabeled_assertion_reported_twice :
    let s := Source.ofString
      "class A feature f do check across l as c invariant i: p all q end; b end end end" "<string>"
    let a := s.analyse { rules := [.assertionLabeling] }
    s.lex.parse.diagnostics = [] ∧ a.collected.suppressed = 0 ∧
      (a.collected.diagnostics.countP fun d =>
        d.location = ⟨1, 68, 67⟩ && d.rule = .assertionLabeling) = 2 := by
  intro s a
  have hstages : (suppressions s.lex.tokens, s.lex.parse.diagnostics,
      s.entries.map fun x => (x.1, x.2.label, x.2.location)) =
        ([], [], [(.check, none, ⟨1, 28, 27⟩), (.check, none, ⟨1, 68, 67⟩),
          (.loopInvariant, some "i", ⟨1, 52, 51⟩), (.loopInvariant, none, ⟨1, 68, 67⟩)]) := by
    cbv
  obtain ⟨hnone, hparsed, hentries⟩ := by simpa only [Prod.mk.injEq] using hstages
  have hcovered : a.collected.suppressed = 0 := Source.suppressed_eq_zero _ hnone
  have hc : AssertionLabeling.checker ∈ registry := by simp [registry]
  have hunlabeled (kind : AssertionKind) (h : (kind, none, ⟨1, 68, 67⟩) ∈
      s.entries.map fun x => (x.1, x.2.label, x.2.location)) :
      ∃ x, s.Unlabeled ⟨1, 68, 67⟩ x ∧ x.1 = kind := by
    obtain ⟨x, hx, heq⟩ := List.mem_map.mp h
    simp only [Prod.mk.injEq] at heq
    exact ⟨x, ⟨hx, heq.2⟩, heq.1⟩
  have hdoubled : s.Doubled ⟨1, 68, 67⟩ :=
    ⟨hunlabeled .check (by simp [hentries]), hunlabeled .loopInvariant (by simp [hentries])⟩
  refine ⟨hparsed, hcovered, ?_⟩
  exact (countP_diagnostics_analyse hc List.mem_cons_self hcovered fun d =>
    d.location = ⟨1, 68, 67⟩).trans (AssertionLabeling.countP_of_doubled hdoubled).1

end ContractLint
