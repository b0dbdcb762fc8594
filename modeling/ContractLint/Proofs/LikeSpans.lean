/-
# Spans that read alike

Bodies and assertions are runs of tokens, and what is read off a run depends on the kinds of its
tokens and on which of them start a later line.  So runs whose tokens are alike, one by one, have
the same nesting, end at the same place, fall into alike statements (`statements_alike`) and
assertions (`assertions_alike`), and hold alike agents and quantifiers at the same places of the run
(`constructs_alike`).

The agents are the one part where a text is put together from tokens: the target of an agent.  Its
dots are not copied but written, so that the targets are alike by the law for dotted texts.
-/
import ContractLint.Proofs.Likeness

namespace ContractLint

open List (Forall₂)

variable {L : Likeness}

/-! ## 1. Nesting -/

theorem isManifest_alike {o o' : Option Token} (h : Option.Rel L.token o o') :
    isManifest o = isManifest o' :=
  rel_any (fun _ _ htu => L.isString_eq htu) h

theorem feed_alike {t u : Token} {o o' : Option Token} (n : Nesting) (h : L.token t u)
    (ho : Option.Rel L.token o o') : n.feed t o = n.feed u o' := by
  unfold Nesting.feed Nesting.feedKeyword
  rw [L.kind_eq h, isManifest_alike ho]

theorem spanLengthFrom_alike (stops hard : List Keyword) {ts us : List Token}
    (h : Forall₂ L.token ts us) (n : Nesting) :
    spanLengthFrom stops hard n ts = spanLengthFrom stops hard n us := by
  induction h generalizing n with
  | nil => rfl
  | cons htu hrest ih =>
    have hnext := forall₂_head? hrest
    rw [spanLengthFrom, spanLengthFrom, L.kind_eq htu, feed_alike n htu hnext, ih]
    unfold Nesting.stopsAt
    rw [isManifest_alike hnext]

theorem spanLength_alike (stops hard : List Keyword) {ts us : List Token}
    (h : Forall₂ L.token ts us) : spanLength stops hard ts = spanLength stops hard us :=
  spanLengthFrom_alike stops hard h {}

/-! ## 2. Statements -/

theorem isSeparator_alike {t u : Token} (h : L.token t u) : isSeparator t = isSeparator u :=
  L.isSymbol_eq h _

theorem continues_alike {p q t u : Token} (hpq : L.token p q) (htu : L.token t u) :
    continues p t = continues q u := by
  unfold continues
  rw [L.isSymbol_eq hpq, L.isKeyword_eq hpq, L.isSymbol_eq htu, L.isKeyword_eq htu]

theorem beginsStatement_alike (n : Nesting) {o o' : Option Token} {t u : Token}
    (ho : Option.Rel L.token o o') (h : L.token t u) :
    beginsStatement n o t = beginsStatement n o' u := by
  unfold beginsStatement
  rw [isSeparator_alike h]
  cases ho with
  | none => rfl
  | some hpq =>
    dsimp only
    rw [isSeparator_alike hpq, continues_alike hpq h, decide_eq_decide.mpr (L.line_lt_iff hpq h)]

/-- The same tokens begin statements. -/
theorem marked_alike {ts us : List Token} (h : Forall₂ L.token ts us) (n : Nesting)
    {o o' : Option Token} (ho : Option.Rel L.token o o') :
    Forall₂ (fun a b => a.1 = b.1 ∧ L.token a.2 b.2) (marked n o ts) (marked n o' us) := by
  induction h generalizing n o o' with
  | nil => exact .nil
  | cons htu hrest ih =>
    rw [marked, marked, L.isEof_eq htu]
    split
    · exact .cons ⟨rfl, htu⟩ (List.rel_map (fun _ _ h => ⟨rfl, h⟩) hrest)
    · refine .cons ⟨beginsStatement_alike n ho htu, htu⟩ ?_
      rw [feed_alike n htu (forall₂_head? hrest)]
      exact ih _ (.some htu)

theorem grouped_alike {as bs : List (Bool × Token)}
    (h : Forall₂ (fun a b => a.1 = b.1 ∧ L.token a.2 b.2) as bs) :
    Forall₂ L.token (grouped as).1 (grouped bs).1 ∧
      Forall₂ (Forall₂ L.token) (grouped as).2 (grouped bs).2 := by
  induction h with
  | nil => exact ⟨.nil, .nil⟩
  | @cons a b as bs hab _ ih =>
    obtain ⟨begins, t⟩ := a
    obtain ⟨begins', u⟩ := b
    obtain ⟨rfl, htu⟩ := hab
    obtain ⟨hbefore, hgroups⟩ := ih
    unfold grouped
    dsimp only
    split
    · exact ⟨.nil, .cons (.cons htu hbefore) hgroups⟩
    · exact ⟨.cons htu hbefore, hgroups⟩

/-- **Alike runs fall into alike statements.** -/
theorem statements_alike {ts us : List Token} (h : Forall₂ L.token ts us) :
    Forall₂ (Forall₂ L.token) (statements ts) (statements us) := by
  refine List.rel_map (fun as bs hab => ?_) (grouped_alike (marked_alike h {} .none)).2
  refine forall₂_filter (fun t u htu => ?_) hab
  rw [isSeparator_alike htu, L.isEof_eq htu]

/-! ## 3. Assertions -/

theorem ofTokens_alike {t u : Token} {ts us : List Token} (h : L.token t u)
    (hs : Forall₂ L.token ts us) :
    Assertion.Alike L (Assertion.ofTokens t ts) (Assertion.ofTokens u us) := by
  unfold Assertion.ofTokens
  cases hs with
  | nil => exact ⟨.none, .cons h .nil, L.place_token h⟩
  | cons hcolon hrest =>
    dsimp only
    rw [← L.isIdentifier_eq h, ← L.isSymbol_eq hcolon]
    split
    · rename_i hlabel
      have hkind : t.kind = .identifier := by
        simpa [Token.isIdentifier] using (Bool.and_eq_true_iff.mp hlabel).1
      exact ⟨.some (L.name_token h hkind), hrest, L.place_token h⟩
    · exact ⟨.none, .cons h (.cons hcolon hrest), L.place_token h⟩

/-- **Alike runs hold alike assertions.** -/
theorem assertions_alike {ts us : List Token} (h : Forall₂ L.token ts us) :
    Forall₂ (Assertion.Alike L) (assertions ts) (assertions us) := by
  refine List.rel_filterMap (fun as bs hab => ?_) (statements_alike h)
  cases hab with
  | nil => exact .none
  | cons htu hrest => exact .some (ofTokens_alike htu hrest)

theorem innerBlock_alike (kind : AssertionKind) (stops : List Keyword) {t u : Token}
    {ts us : List Token} (h : L.token t u) (hs : Forall₂ L.token ts us) :
    AssertionBlock.Alike L (innerBlock kind stops t ts) (innerBlock kind stops u us) where
  kind := rfl
  location := L.place_token h
  assertions := by
    unfold innerBlock
    dsimp only
    rw [spanLength_alike stops [] hs]
    exact assertions_alike (List.forall₂_take _ hs)
  extended := rfl

theorem innerBlock?_alike (n : Nesting) {t u : Token} {ts us : List Token} (h : L.token t u)
    (hs : Forall₂ L.token ts us) :
    Option.Rel (AssertionBlock.Alike L) (innerBlock? n t ts) (innerBlock? n u us) := by
  unfold innerBlock?
  rw [L.isKeyword_eq h, L.isKeyword_eq h]
  dsimp only
  split
  · exact .some (innerBlock_alike _ _ h hs)
  split
  · exact .some (innerBlock_alike _ _ h hs)
  · exact .none

theorem innerBlocks_alike {ts us : List Token} (h : Forall₂ L.token ts us) :
    Forall₂ (AssertionBlock.Alike L) (innerBlocks ts) (innerBlocks us) := by
  unfold innerBlocks
  generalize ({} : Nesting) = n
  induction h generalizing n with
  | nil => exact .nil
  | cons htu hrest ih =>
    rw [innerBlocksFrom, innerBlocksFrom, feed_alike n htu (forall₂_head? hrest)]
    exact List.rel_append (rel_toList (innerBlock?_alike n htu hrest)) (ih _)

/-! ## 4. Brackets and arguments of agents -/

theorem matchingFrom_alike (opening close : Symbol) {ts us : List Token}
    (h : Forall₂ L.token ts us) (depth : Nat) :
    matchingFrom opening close depth ts = matchingFrom opening close depth us := by
  induction h generalizing depth with
  | nil => rfl
  | cons htu _ ih =>
    rw [matchingFrom, matchingFrom, L.isSymbol_eq htu, L.isSymbol_eq htu, ih, ih, ih]

theorem matching?_alike (opening close : Symbol) {ts us : List Token}
    (h : Forall₂ L.token ts us) : matching? opening close ts = matching? opening close us :=
  matchingFrom_alike opening close h 0

theorem argumentDepth_alike (depth : Int) {t u : Token} (h : L.token t u) :
    argumentDepth depth t = argumentDepth depth u := by
  unfold argumentDepth
  rw [L.isSymbol_eq h, L.isSymbol_eq h]

theorem argumentGroups_alike {ts us : List Token} (h : Forall₂ L.token ts us) (depth : Int) :
    Forall₂ (Forall₂ L.token) (argumentGroups depth ts) (argumentGroups depth us) := by
  induction h generalizing depth with
  | nil => exact .cons .nil .nil
  | @cons t u ts us htu _ ih =>
    have hgroups := ih (argumentDepth depth u)
    rw [argumentGroups, argumentGroups, argumentDepth_alike depth htu, L.isSymbol_eq htu]
    split
    · exact .cons .nil hgroups
    · generalize argumentGroups (argumentDepth depth u) ts = gs at hgroups ⊢
      generalize argumentGroups (argumentDepth depth u) us = gs' at hgroups ⊢
      cases hgroups with
      | nil => exact .cons (.cons htu .nil) .nil
      | cons hg hgs => exact .cons (.cons htu hg) hgs

theorem splitArguments_alike {p q : Token} {ts us : List Token} (hpq : L.token p q)
    (h : Forall₂ L.token ts us) :
    Forall₂ (AgentArgument.Alike L) (splitArguments p ts) (splitArguments q us) := by
  have hempty : ts = [] ↔ us = [] := by
    rw [← List.length_eq_zero_iff, ← List.length_eq_zero_iff, h.length_eq]
  unfold splitArguments
  simp only [hempty]
  split
  · exact .nil
  · refine List.rel_map (fun g g' hg => ⟨hg, L.place_token ?_⟩) (argumentGroups_alike h 0)
    cases hg with
    | nil => exact hpq
    | cons htu _ => exact htu

/-! ## 5. Agents -/

theorem isChainPart_alike {t u : Token} (h : L.token t u) : isChainPart t = isChainPart u := by
  unfold isChainPart
  rw [L.isIdentifier_eq h, L.isKeyword_eq h]

theorem isChainLink_alike {t u : Token} (h : L.token t u) : isChainLink t = isChainLink u := by
  unfold isChainLink
  rw [L.isIdentifier_eq h, L.isKeyword_eq h]

theorem chain_alike {ts us : List Token} (h : Forall₂ L.token ts us) :
    Forall₂ L.token (chain ts) (chain us) := by
  induction ts using chain.induct generalizing us with
  | case1 p d q ts hpart hlink ih =>
    rcases h with _ | ⟨hp, _ | ⟨hd, _ | ⟨hq, h⟩⟩⟩
    simp only [chain, isChainPart_alike hp, L.isSymbol_eq hd, isChainLink_alike hq] at hpart hlink ⊢
    rw [if_pos hpart, if_pos hlink, if_pos hpart, if_pos hlink]
    exact .cons hp (ih (.cons hq h))
  | case2 p d q ts hpart hlink =>
    rcases h with _ | ⟨hp, _ | ⟨hd, _ | ⟨hq, h⟩⟩⟩
    simp only [chain, isChainPart_alike hp, L.isSymbol_eq hd, isChainLink_alike hq] at hpart hlink ⊢
    rw [if_pos hpart, if_neg hlink, if_pos hpart, if_neg hlink]
    exact .cons hp .nil
  | case3 p d q ts hpart =>
    rcases h with _ | ⟨hp, _ | ⟨hd, _ | ⟨hq, h⟩⟩⟩
    simp only [chain, isChainPart_alike hp] at hpart ⊢
    rw [if_neg hpart, if_neg hpart]
    exact .nil
  | case4 p ts hshort hpart =>
    rcases h with _ | ⟨hp, _ | ⟨hd, _ | ⟨hq, h⟩⟩⟩
    · simpa only [chain, ← isChainPart_alike hp, if_pos hpart] using .cons hp .nil
    · simpa only [chain, ← isChainPart_alike hp, if_pos hpart] using .cons hp .nil
    · exact absurd rfl (hshort _ _ _)
  | case5 p ts hshort hpart =>
    rcases h with _ | ⟨hp, _ | ⟨hd, _ | ⟨hq, h⟩⟩⟩
    · simpa only [chain, ← isChainPart_alike hp, if_neg hpart] using .nil
    · simpa only [chain, ← isChainPart_alike hp, if_neg hpart] using .nil
    · exact absurd rfl (hshort _ _ _)
  | case6 =>
    cases h
    exact .nil

/-- Alike texts in alike order, with dots between them. -/
theorem text_intercalate {ts us : List Token} (h : Forall₂ L.token ts us) :
    L.text (".".intercalate (ts.map Token.text)) (".".intercalate (us.map Token.text)) := by
  induction h with
  | nil => exact L.text_render .nil
  | cons htu hrest ih =>
    cases hrest with
    | nil => simpa using L.text_token htu
    | cons _ _ =>
      simp only [List.map_cons, String.intercalate_cons_cons] at ih ⊢
      exact L.text_dot (L.text_token htu) ih

theorem extend_alike {p q : Target} {ts us : List Token} (hpq : Target.Alike L p q)
    (h : Forall₂ L.token ts us) : Target.Alike L (p.extend ts) (q.extend us) := by
  have htext := text_intercalate h
  unfold Target.extend
  dsimp only
  cases h with
  | nil => exact hpq
  | cons _ _ =>
    cases hpq with
    | implicit => exact .closed htext
    | closed hbefore => exact .closed (L.text_dot hbefore htext)
    | ofType hbefore => exact .ofType (L.text_dot hbefore htext)

/-- Agents, or the faults of agents, that are alike and take the same number of tokens. -/
structure AgentReading.Alike (L : Likeness) (x y : AgentReading) : Prop where
  outcome : Attempt.Alike L (Agent.Alike L) x.1 y.1
  taken : x.2 = y.2

section Agents

variable {k k' : Token} {ts us : List Token}

theorem readCall_alike {p q : Target} (hk : L.token k k') (hpq : Target.Alike L p q)
    (h : Forall₂ L.token ts us) (skip : Nat) :
    AgentReading.Alike L (readCall k p ts skip) (readCall k' q us skip) := by
  have hparts := chain_alike (List.forall₂_drop skip h)
  have hlast := forall₂_getLast? hparts
  have hplace := L.place_token hk
  unfold readCall
  dsimp only
  rw [hparts.length_eq]
  generalize hpassed : skip + (2 * (chain (us.drop skip)).length - 1) = passed
  have hmissing : AgentReading.Alike L
      (.error ⟨.agentWithoutFeature ((ts[passed]?).getD k), ((ts[passed]?).getD k).location⟩,
        passed)
      (.error ⟨.agentWithoutFeature ((us[passed]?).getD k'), ((us[passed]?).getD k').location⟩,
        passed) := by
    have hfound := rel_getD (forall₂_getElem? h passed) hk
    exact ⟨.error ⟨.agentWithoutFeature hfound, L.place_token hfound⟩, rfl⟩
  generalize (chain (ts.drop skip)).getLast? = last at hlast ⊢
  generalize (chain (us.drop skip)).getLast? = last' at hlast ⊢
  cases hlast with
  | none => exact hmissing
  | @some t u htu =>
    dsimp only
    rw [← L.isIdentifier_eq htu]
    split
    · exact hmissing
    rename_i hname
    have htarget := extend_alike hpq (forall₂_dropLast hparts)
    have hfeature : L.name t.text u.text := by
      refine L.name_token htu ?_
      simpa [Token.isIdentifier] using hname
    have hrest := List.forall₂_drop passed h
    generalize ts.drop passed = rest at hrest ⊢
    generalize us.drop passed = rest' at hrest ⊢
    cases hrest with
    | nil => exact ⟨.ok (.call hplace htarget hfeature .none), rfl⟩
    | cons hparen hinner =>
      dsimp only
      rw [L.isSymbol_eq hparen, matching?_alike _ _ (.cons hparen hinner)]
      split
      · split
        · exact ⟨.error ⟨.plain rfl, L.place_token hparen⟩, h.length_eq⟩
        · rename_i close _
          have harguments := splitArguments_alike hparen (List.forall₂_take (close - 1) hinner)
          exact ⟨.ok (.call hplace htarget hfeature (.some harguments)), rfl⟩
      · exact ⟨.ok (.call hplace htarget hfeature .none), rfl⟩

/-- **Agents are read alike**, and pass the same number of tokens. -/
theorem readAgent_alike (hk : L.token k k') (h : Forall₂ L.token ts us) :
    AgentReading.Alike L (readAgent k ts) (readAgent k' us) := by
  have hplace := L.place_token hk
  unfold readAgent
  cases h with
  | nil => exact ⟨.error ⟨.plain rfl, hplace⟩, rfl⟩
  | @cons t u ts us htu hrest =>
    have h : Forall₂ L.token (t :: ts) (u :: us) := .cons htu hrest
    have htplace := L.place_token htu
    dsimp only
    rw [L.isKeyword_eq htu, L.isSymbol_eq htu, L.isSymbol_eq htu, matching?_alike _ _ h,
      matching?_alike _ _ h]
    split
    · exact ⟨.ok (.inline hplace), rfl⟩
    split
    · split
      · exact ⟨.error ⟨.plain rfl, htplace⟩, rfl⟩
      rename_i close _
      have hafter := forall₂_getElem? h (close + 1)
      generalize (t :: ts)[close + 1]? = after at hafter ⊢
      generalize (u :: us)[close + 1]? = after' at hafter ⊢
      cases hafter with
      | none => exact ⟨.error ⟨.plain rfl, htplace⟩, rfl⟩
      | some hafter =>
        dsimp only
        rw [L.isSymbol_eq hafter, L.isKeyword_eq hafter, L.isSymbol_eq hafter]
        split
        · exact ⟨.ok (.inline hplace), rfl⟩
        split
        · exact readCall_alike hk (.closed (L.text_render (List.forall₂_take _ h))) h _
        · exact ⟨.error ⟨.plain rfl, L.place_token hafter⟩, rfl⟩
    split
    · split
      · exact ⟨.error ⟨.plain rfl, htplace⟩, rfl⟩
      rename_i close _
      have hdot : ((t :: ts)[close + 1]?).any (·.isSymbol [.dot]) =
          ((u :: us)[close + 1]?).any (·.isSymbol [.dot]) :=
        rel_any (fun _ _ h => L.isSymbol_eq h _) (forall₂_getElem? h (close + 1))
      rw [hdot]
      split
      · have htype := L.text_render (List.forall₂_drop 1 (List.forall₂_take close h))
        exact readCall_alike hk (.ofType htype) h _
      · exact ⟨.error ⟨.plain rfl, htplace⟩, rfl⟩
    · exact readCall_alike hk .implicit h 0

end Agents

/-! ## 6. Quantifiers and the search -/

theorem hasBarFrom_alike {ts us : List Token} (h : Forall₂ L.token ts us) (depth : Nat) :
    hasBarFrom depth ts = hasBarFrom depth us := by
  induction h generalizing depth with
  | nil => rfl
  | cons htu _ ih =>
    rw [hasBarFrom, hasBarFrom, L.isSymbol_eq htu, L.isSymbol_eq htu, L.isSymbol_eq htu,
      L.isSymbol_eq htu, ih, ih, ih]

theorem readQuantifier_alike (quantity : Quantity) {l m : Location} (hplace : L.place l m)
    {ts us : List Token} (h : Forall₂ L.token ts us) :
    Quantifier.Alike L (readQuantifier quantity l ts) (readQuantifier quantity m us) := by
  have hcursor : Option.Rel (fun t u => L.token t u ∧ t.kind = .identifier)
      (ts.head?.filter Token.isIdentifier) (us.head?.filter Token.isIdentifier) := by
    cases h with
    | nil => exact .none
    | @cons t u _ _ htu _ =>
      simp only [List.head?_cons, Option.filter_some, ← L.isIdentifier_eq htu]
      split
      · exact .some ⟨htu, by simpa [Token.isIdentifier] using ‹t.isIdentifier = true›⟩
      · exact .none
  have hrest : Forall₂ L.token
      (if (ts.head?.filter Token.isIdentifier).isSome then ts.tail else ts)
      (if (us.head?.filter Token.isIdentifier).isSome then us.tail else us) := by
    rw [rel_isSome hcursor, ← List.drop_one, ← List.drop_one]
    split
    · exact List.forall₂_drop 1 h
    · exact h
  exact
    { location := hplace
      quantity := rfl
      cursor := rel_map (fun _ _ htu => ⟨L.name_token htu.1 htu.2, L.place_token htu.1⟩) hcursor
      hasColon := rel_any (fun _ _ htu => L.isSymbol_eq htu _) (forall₂_head? hrest)
      hasBar := hasBarFrom_alike hrest 0 }

/-- What the search finds at alike tokens. -/
inductive Construct.Alike (L : Likeness) : Construct → Construct → Prop
  | agent {a b : Agent} (h : Agent.Alike L a b) : Alike L (.agent a) (.agent b)
  | quantifier {a b : Quantifier} (h : Quantifier.Alike L a b) :
      Alike L (.quantifier a) (.quantifier b)
  | fault {e f : SyntaxError} (h : SyntaxError.Alike L e f) : Alike L (.fault e) (.fault f)

theorem ofAgent_alike {x y : Except SyntaxError Agent}
    (h : Attempt.Alike L (Agent.Alike L) x y) :
    Construct.Alike L (.ofAgent x) (.ofAgent y) := by
  cases h with
  | ok h => exact .agent h
  | error h => exact .fault h

/-- **The search through alike runs finds alike constructs.** -/
theorem constructs_alike {ts us : List Token} (h : Forall₂ L.token ts us) :
    Forall₂ (Construct.Alike L) (constructs ts) (constructs us) := by
  fun_induction constructs ts generalizing us with
  | case1 =>
    cases h
    rw [constructs]
    exact .nil
  | case2 t rest hagent reading =>
    rename_i ih
    rcases h with _ | ⟨htu, h⟩
    have hreading := readAgent_alike htu h
    rw [constructs, ← L.isKeyword_eq htu, if_pos hagent]
    refine .cons (ofAgent_alike hreading.outcome) (ih ?_)
    rw [← hreading.taken]
    exact List.forall₂_drop _ h
  | case3 t rest hagent q hq ih =>
    rcases h with _ | ⟨htu, h⟩
    rw [constructs, ← L.isKeyword_eq htu, ← L.quantity?_eq htu, if_neg hagent, hq]
    exact .cons (.quantifier (readQuantifier_alike q (L.place_token htu) h)) (ih h)
  | case4 t rest hagent hq ih =>
    rcases h with _ | ⟨htu, h⟩
    rw [constructs, ← L.isKeyword_eq htu, ← L.quantity?_eq htu, if_neg hagent, hq]
    exact ih h

section Sorted

variable {as bs : List Construct} (h : Forall₂ (Construct.Alike L) as bs)
include h

theorem agents_alike : Forall₂ (Agent.Alike L) (Construct.agents as) (Construct.agents bs) := by
  refine List.rel_filterMap (fun a b hab => ?_) h
  cases hab with
  | agent h => exact .some h
  | quantifier _ => exact .none
  | fault _ => exact .none

theorem quantifiers_alike :
    Forall₂ (Quantifier.Alike L) (Construct.quantifiers as) (Construct.quantifiers bs) := by
  refine List.rel_filterMap (fun a b hab => ?_) h
  cases hab with
  | agent _ => exact .none
  | quantifier h => exact .some h
  | fault _ => exact .none

theorem faults_alike :
    Forall₂ (SyntaxError.Alike L) (Construct.faults as) (Construct.faults bs) := by
  refine List.rel_filterMap (fun a b hab => ?_) h
  cases hab with
  | agent _ => exact .none
  | quantifier _ => exact .none
  | fault h => exact .some h

end Sorted

theorem AssertionBlock.constructs_alike {a b : AssertionBlock} (h : AssertionBlock.Alike L a b) :
    Forall₂ (Construct.Alike L) a.constructs b.constructs :=
  List.rel_flatMap h.assertions fun _ _ hab => ContractLint.constructs_alike hab.expression

end ContractLint
