/-
# The arguments of an agent

What stands between the parentheses of an agent is cut at commas.  Two counts of brackets decide
where.  The match of the opening parenthesis counts round brackets only, and the commas outside
brackets are found by counting round, square and curly ones together, whichever closes which.  So
the level can fall below zero on the way, and a comma counts again where it comes back to zero.

Both counts are stated here by the tokens in front of a place, and not by a running depth.

* `matching?_eq_find?`: the match of a bracket is the first place up to which as many brackets are
  closed as opened;
* `argumentGroups_eq`: the groups are the tokens split at the commas whose level is zero;
* `cutAtCommas_splitArguments`: whatever the tokens are, those commas join the groups to them again,
  so no token is lost and none comes into another argument;
* `exists_call_readAgent`: an agent with arguments is written as a call, up to the parenthesis that
  closes them, and they are what stands in front of it;
* `agent_arguments_rejoin`: all of this, and the agents of a text are those of its spans.
-/
import ContractLint.Proofs.Quantification
import ContractLint.Proofs.SourceOrder

namespace ContractLint

/-! ## 1. The match of a bracket -/

theorem Token.isSymbol_of_disjoint {t : Token} {ss ss' : List Symbol} (h : t.isSymbol ss = true)
    (hdisjoint : ∀ s ∈ ss, s ∉ ss') : t.isSymbol ss' = false := by
  unfold Token.isSymbol at h ⊢
  split at h
  · rename_i s hkind
    simpa [hkind] using hdisjoint s (by simpa using h)
  · cases h

/-- The number of tokens that are one of the symbols. -/
def symbolCount (ss : List Symbol) (ts : List Token) : Nat :=
  ts.countP (·.isSymbol ss)

theorem symbolCount_cons (ss : List Symbol) (t : Token) (ts : List Token) :
    symbolCount ss (t :: ts) = symbolCount ss [t] + symbolCount ss ts :=
  (List.countP_append : ([t] ++ ts).countP (·.isSymbol ss) = _)

section

variable {opening close : Symbol}

/-- Whether as many brackets are closed up to the token `i` as are opened, `depth` of them in front
of the tokens. -/
def isLevelAt (opening close : Symbol) (depth : Nat) (ts : List Token) (i : Nat) : Bool :=
  depth + symbolCount [opening] (ts.take (i + 1)) == symbolCount [close] (ts.take (i + 1))

theorem isLevelAt_cons {depth next : Nat} {t : Token} (ts : List Token)
    (h : depth + symbolCount [opening] [t] = next + symbolCount [close] [t]) :
    (∀ i, isLevelAt opening close depth (t :: ts) (i + 1) = isLevelAt opening close next ts i) ∧
      isLevelAt opening close depth (t :: ts) 0 = (next == 0) := by
  refine ⟨fun i => ?_, ?_⟩
  · rw [isLevelAt, isLevelAt, List.take_succ_cons, symbolCount_cons, symbolCount_cons [close],
      Bool.eq_iff_iff, beq_iff_eq, beq_iff_eq]
    omega
  · rw [isLevelAt, List.take_succ_cons, List.take_zero, Bool.eq_iff_iff, beq_iff_eq, beq_iff_eq]
    omega

/-- Where a token leaves brackets open, the first level place is that of the rest. -/
theorem find?_isLevelAt_cons {depth next : Nat} {t : Token} {ts : List Token}
    (h : depth + symbolCount [opening] [t] = next + symbolCount [close] [t]) (hnext : 0 < next) :
    ((List.range ts.length).find? (isLevelAt opening close next ts)).map (· + 1) =
      (List.range (t :: ts).length).find? (isLevelAt opening close depth (t :: ts)) := by
  obtain ⟨hrest, hfirst⟩ := isLevelAt_cons ts h
  rw [List.length_cons, List.range_succ_eq_map, List.find?_cons, hfirst, List.find?_map,
    beq_eq_false_iff_ne.mpr (Nat.ne_of_gt hnext), ← funext hrest]
  rfl

/-- With brackets open in front of the tokens, the match is where they are level for the first
time. -/
theorem matchingFrom_eq_find? (hne : opening ≠ close) (ts : List Token) :
    ∀ depth : Nat, 0 < depth → matchingFrom opening close depth ts =
      (List.range ts.length).find? (isLevelAt opening close depth ts) := by
  induction ts with
  | nil => exact fun _ _ => rfl
  | cons t ts ih =>
    intro depth hdepth
    rw [matchingFrom]
    by_cases hopen : t.isSymbol [opening] = true
    · have hclose : t.isSymbol [close] = false :=
        Token.isSymbol_of_disjoint hopen (by simpa using hne)
      rw [if_pos hopen, ih (depth + 1) (Nat.succ_pos _)]
      exact find?_isLevelAt_cons (by simp [symbolCount, hopen, hclose]) (Nat.succ_pos _)
    rw [if_neg hopen]
    by_cases hclose : t.isSymbol [close] = true
    · rw [if_pos hclose]
      split
      · -- the last open bracket is closed
        have hlevel : depth + symbolCount [opening] [t] = 0 + symbolCount [close] [t] := by
          simp [symbolCount, hopen, hclose]
          omega
        rw [List.length_cons, List.range_succ_eq_map, List.find?_cons,
          (isLevelAt_cons ts hlevel).2]
        rfl
      · rw [ih (depth - 1) (by omega)]
        refine find?_isLevelAt_cons ?_ (by omega)
        simp [symbolCount, hopen, hclose]
        omega
    · rw [if_neg hclose, ih depth hdepth]
      exact find?_isLevelAt_cons (by simp [symbolCount, hopen, hclose]) hdepth

/-- **A bracket's match is where as many were closed as opened since, for the first time.** -/
theorem matching?_eq_find? (hne : opening ≠ close) {span : List Token} {start : Nat} {t : Token}
    (ht : span[start]? = some t) (hopen : t.isSymbol [opening] = true) :
    (matching? opening close (span.drop start)).map (start + ·) =
      (List.range' start (span.length - start)).find? fun i =>
        symbolCount [opening] ((span.take (i + 1)).drop start) ==
          symbolCount [close] ((span.take (i + 1)).drop start) := by
  obtain ⟨hstart, rfl⟩ := List.getElem?_eq_some_iff.mp ht
  have hclose : span[start].isSymbol [close] = false :=
    Token.isSymbol_of_disjoint hopen (by simpa using hne)
  have hlevel : ((fun i => symbolCount [opening] ((span.take (i + 1)).drop start) ==
      symbolCount [close] ((span.take (i + 1)).drop start)) ∘ (start + ·)) =
        isLevelAt opening close 0 (span.drop start) := by
    funext i
    rw [Function.comp_apply, isLevelAt, List.take_drop, Nat.zero_add, Nat.add_assoc]
  rw [List.range'_eq_map_range, List.find?_map, hlevel, ← List.length_drop, matching?,
    List.drop_eq_getElem_cons hstart, matchingFrom, if_pos hopen,
    matchingFrom_eq_find? hne _ 1 Nat.zero_lt_one]
  congr 1
  exact find?_isLevelAt_cons (by simp [symbolCount, hopen, hclose]) Nat.zero_lt_one

/-- The match is a closing bracket. -/
theorem isSymbol_matchingFrom {ts : List Token} {depth n : Nat}
    (h : matchingFrom opening close depth ts = some n) :
    ∃ t, ts[n]? = some t ∧ t.isSymbol [close] = true := by
  fun_induction matchingFrom opening close depth ts generalizing n with
  | case1 => cases h
  | case2 depth t ts hopen ih =>
    obtain ⟨m, hm, rfl⟩ := Option.map_eq_some_iff.mp h
    exact ih hm
  | case3 depth t ts hopen hclose =>
    cases h
    exact ⟨t, rfl, hclose⟩
  | case4 depth t ts hopen hclose hdepth ih =>
    obtain ⟨m, hm, rfl⟩ := Option.map_eq_some_iff.mp h
    exact ih hm
  | case5 depth t ts hopen hclose ih =>
    obtain ⟨m, hm, rfl⟩ := Option.map_eq_some_iff.mp h
    exact ih hm

/-- What follows an opening bracket is split at its match. -/
theorem exists_split_of_matching? {opener : Token} {ts : List Token} {n : Nat}
    (hopen : opener.isSymbol [opening] = true)
    (h : matching? opening close (opener :: ts) = some n) :
    ∃ inner closing behind, ts = inner ++ closing :: behind ∧ closing.isSymbol [close] = true ∧
      n = inner.length + 1 := by
  rw [matching?, matchingFrom, if_pos hopen] at h
  obtain ⟨m, hm, rfl⟩ := Option.map_eq_some_iff.mp h
  obtain ⟨closing, hclosing, hclose⟩ := isSymbol_matchingFrom hm
  obtain ⟨hlt, rfl⟩ := List.getElem?_eq_some_iff.mp hclosing
  refine ⟨ts.take m, ts[m], ts.drop (m + 1), ?_, hclose, ?_⟩
  · rw [← List.drop_eq_getElem_cons hlt, List.take_append_drop]
  · rw [List.length_take_of_le (Nat.le_of_lt hlt)]

end

/-! ## 2. Commas outside brackets -/

/-- How many more brackets are opened than closed. -/
def bracketLevel (ts : List Token) : Int :=
  (symbolCount [.openParen, .openBracket, .openBrace] ts : Int) -
    symbolCount [.closeParen, .closeBracket, .closeBrace] ts

/-- Each token with the bracket level in front of it, when `level` is that of the first. -/
def levelsFrom (level : Int) (ts : List Token) : List (Token × Int) :=
  ts.mapIdx fun i t => (t, level + bracketLevel (ts.take i))

/-- A comma outside brackets. -/
def isOuterComma (p : Token × Int) : Bool :=
  p.1.isSymbol [.comma] && p.2 == 0

def outerCommas (ts : List Token) : List Token :=
  ((levelsFrom 0 ts).filter isOuterComma).map Prod.fst

theorem argumentDepth_eq (level : Int) (t : Token) :
    argumentDepth level t = level + bracketLevel [t] := by
  simp only [argumentDepth, bracketLevel]
  by_cases hopen : t.isSymbol [.openParen, .openBracket, .openBrace] = true
  · have hclose : t.isSymbol [.closeParen, .closeBracket, .closeBrace] = false :=
      Token.isSymbol_of_disjoint hopen (by decide)
    simp [hopen, hclose, symbolCount]
  · by_cases hclose : t.isSymbol [.closeParen, .closeBracket, .closeBrace] = true
    · simp [hopen, hclose, symbolCount, Int.sub_eq_add_neg]
    · simp [hopen, hclose, symbolCount]

theorem argumentDepth_comma {t : Token} (h : t.isSymbol [.comma] = true) (level : Int) :
    argumentDepth level t = level := by
  rw [argumentDepth, Token.isSymbol_of_disjoint h (by decide),
    Token.isSymbol_of_disjoint h (by decide)]
  rfl

theorem levelsFrom_cons (level : Int) (t : Token) (ts : List Token) :
    levelsFrom level (t :: ts) = (t, level) :: levelsFrom (argumentDepth level t) ts := by
  have hlevel : ∀ i, level + bracketLevel ((t :: ts).take (i + 1)) =
      argumentDepth level t + bracketLevel (ts.take i) := by
    intro i
    rw [argumentDepth_eq, List.take_succ_cons]
    unfold bracketLevel
    rw [symbolCount_cons _ t (ts.take i), symbolCount_cons [.closeParen, _, _] t (ts.take i)]
    omega
  have hfirst : level + bracketLevel ((t :: ts).take 0) = level := Int.add_zero level
  unfold levelsFrom
  simp only [List.mapIdx_cons, hlevel, hfirst]

theorem map_fst_levelsFrom (level : Int) (ts : List Token) :
    (levelsFrom level ts).map Prod.fst = ts := by
  induction ts generalizing level with
  | nil => rfl
  | cons t ts ih => rw [levelsFrom_cons, List.map_cons, ih]

/-- **The argument groups are what the commas outside brackets leave of the tokens.** -/
theorem argumentGroups_eq (level : Int) (ts : List Token) :
    argumentGroups level ts =
      ((levelsFrom level ts).splitOnP isOuterComma).map (List.map Prod.fst) := by
  induction ts generalizing level with
  | nil => rfl
  | cons t ts ih =>
    rw [argumentGroups, levelsFrom_cons, List.splitOnP_cons_eq_if_modifyHead]
    by_cases hcomma : isOuterComma (t, level) = true
    · obtain ⟨hsymbol, hlevel⟩ := Bool.and_eq_true_iff.mp hcomma
      have hzero : argumentDepth level t = 0 := by
        rw [argumentDepth_comma hsymbol]
        exact eq_of_beq hlevel
      rw [if_pos ⟨hzero, hsymbol⟩, if_pos hcomma, ih]
      rfl
    · have hother : ¬ (argumentDepth level t = 0 ∧ t.isSymbol [.comma] = true) := by
        rintro ⟨hzero, hsymbol⟩
        rw [argumentDepth_comma hsymbol] at hzero
        exact hcomma (Bool.and_eq_true_iff.mpr ⟨hsymbol, beq_iff_eq.mpr hzero⟩)
      obtain ⟨g, gs, hgroups⟩ := List.exists_cons_of_ne_nil
        (List.splitOnP_ne_nil isOuterComma (levelsFrom (argumentDepth level t) ts))
      rw [if_neg hother, if_neg hcomma, ih, hgroups]
      rfl

theorem length_splitOnP {α : Type} (p : α → Bool) (as : List α) :
    (as.splitOnP p).length = (as.filter p).length + 1 := by
  induction as with
  | nil => rfl
  | cons a as ih =>
    rw [List.splitOnP_cons_eq_if_modifyHead, List.filter_cons]
    split
    · rw [List.length_cons, List.length_cons, ih]
    · rw [List.length_modifyHead, ih]

/-! ## 3. Arguments -/

/-- The groups with a separator behind each but the last. -/
def joined (groups : List (List Token)) (separators : List Token) : List Token :=
  (List.zipWith (· ++ ·) groups (separators.map ([·]) ++ [[]])).flatten

/-- **The commas outside brackets join the groups to what was split.** -/
theorem joined_argumentGroups (ts : List Token) :
    joined (argumentGroups 0 ts) (outerCommas ts) = ts := by
  have hspec := congrArg (List.map Prod.fst)
    (List.splitOnP_spec (p := isOuterComma) (levelsFrom 0 ts))
  rw [map_fst_levelsFrom, List.map_flatten, List.map_zipWith] at hspec
  have hseparators : (((levelsFrom 0 ts).filter isOuterComma).map Prod.fst).map ([·]) ++ [[]] =
      (((levelsFrom 0 ts).filter isOuterComma).map ([·]) ++ [[]]).map (List.map Prod.fst) := by
    simp
  rw [joined, argumentGroups_eq, outerCommas, hseparators, List.zipWith_map]
  simpa only [List.map_append] using hspec

theorem isSymbol_of_mem_outerCommas {ts : List Token} {t : Token} (h : t ∈ outerCommas ts) :
    t.isSymbol [.comma] = true := by
  obtain ⟨p, hp, rfl⟩ := List.mem_map.mp h
  exact (Bool.and_eq_true_iff.mp (List.mem_filter.mp hp).2).1

theorem AgentArgument.isOpen_iff (a : AgentArgument) :
    a.isOpen = true ↔ ∃ t, a.tokens = [t] ∧ t.isSymbol [.question] = true := by
  unfold isOpen
  split
  · rename_i t ht
    simp [ht]
  · rename_i hother
    simpa using fun t ht => absurd ht (hother t)

/-- `CutAtCommas paren inner args`: the arguments `args` are the tokens `inner` behind the
parenthesis `paren`, cut at the commas outside brackets. -/
structure CutAtCommas (paren : Token) (inner : List Token) (args : List AgentArgument) : Prop where
  eq_nil_iff : args = [] ↔ inner = []
  tokens : inner ≠ [] → args.map AgentArgument.tokens =
    ((levelsFrom 0 inner).splitOnP isOuterComma).map (List.map Prod.fst)
  joined : joined (args.map AgentArgument.tokens) (outerCommas inner) = inner
  commas : ∀ t ∈ outerCommas inner, t.isSymbol [.comma] = true
  length : inner ≠ [] → args.length = 1 + (outerCommas inner).length
  isOpen : ∀ a ∈ args, a.isOpen = true ↔ ∃ t, a.tokens = [t] ∧ t.isSymbol [.question] = true
  location : ∀ a ∈ args, a.location = (a.tokens.headD paren).location

/-- **Arguments are split without loss.** -/
theorem cutAtCommas_splitArguments (paren : Token) (inner : List Token) :
    CutAtCommas paren inner (splitArguments paren inner) := by
  unfold splitArguments
  split
  · rename_i hinner
    subst hinner
    exact ⟨by simp, fun h => absurd rfl h, rfl, fun t ht => isSymbol_of_mem_outerCommas ht,
      fun h => absurd rfl h, fun a _ => a.isOpen_iff, fun a ha => nomatch ha⟩
  · rename_i hinner
    have htokens : ((argumentGroups 0 inner).map fun g =>
        (⟨g, (g.headD paren).location⟩ : AgentArgument)).map AgentArgument.tokens =
          argumentGroups 0 inner := by
      rw [List.map_map]
      exact List.map_id _
    have hlength : (argumentGroups 0 inner).length = 1 + (outerCommas inner).length := by
      rw [argumentGroups_eq, List.length_map, length_splitOnP, outerCommas, List.length_map,
        Nat.add_comm]
    refine ⟨?_, fun _ => ?_, ?_, fun t ht => isSymbol_of_mem_outerCommas ht, fun _ => ?_,
      fun a _ => a.isOpen_iff, fun a ha => ?_⟩
    · rw [List.map_eq_nil_iff, ← List.length_eq_zero_iff, hlength]
      simp [hinner]
    · rw [htokens, argumentGroups_eq]
    · rw [htokens, joined_argumentGroups]
    · rw [List.length_map, hlength]
    · obtain ⟨g, -, rfl⟩ := List.mem_map.mp ha
      rfl

/-! ## 4. The arguments of an agent -/

/-- A call with arguments, as it is written in the tokens behind an agent keyword. -/
structure AgentCall (ts : List Token) where
  /-- The target, and what else stands in front of the name. -/
  front : List Token
  name : Token
  paren : Token
  inner : List Token
  closing : Token
  behind : List Token
  split : ts = front ++ name :: paren :: (inner ++ closing :: behind)
  names : name.isIdentifier = true
  opens : paren.isSymbol [.openParen] = true
  closes : closing.isSymbol [.closeParen] = true
  matched : matching? .openParen .closeParen (paren :: (inner ++ closing :: behind)) =
    some (inner.length + 1)

/-- The number of tokens up to the closing parenthesis. -/
def AgentCall.length {ts : List Token} (call : AgentCall ts) : Nat :=
  (call.front ++ call.name :: call.paren :: (call.inner ++ [call.closing])).length

theorem isChainPart_of_isChainLink {t : Token} (h : isChainLink t = true) :
    isChainPart t = true :=
  Bool.or_eq_true_iff.mpr
    ((Bool.or_eq_true_iff.mp h).imp_right fun hkeyword => Token.isKeyword_mono hkeyword (by decide))

theorem chain_ne_nil {t : Token} (h : isChainPart t = true) (ts : List Token) :
    chain (t :: ts) ≠ [] := by
  unfold chain
  split
  · split
    · split <;> exact List.cons_ne_nil _ _
    · simp_all
  · simp_all
  · simp_all

/-- The last part of a chain is the last token that the chain takes. -/
theorem take_chain {ts : List Token} {last : Token} (h : (chain ts).getLast? = some last) :
    ∃ links, ts.take (2 * (chain ts).length - 1) = links ++ [last] := by
  fun_induction chain ts with
  | case1 p d q ts hp hlink ih =>
    -- what may follow a dot is a part, so the chain goes on there
    have hpart := isChainPart_of_isChainLink (Bool.and_eq_true_iff.mp hlink).2
    obtain ⟨r, rs, hchain⟩ := List.exists_cons_of_ne_nil (chain_ne_nil hpart ts)
    rw [hchain] at ih h ⊢
    obtain ⟨links, hlinks⟩ := ih h
    refine ⟨p :: d :: links, ?_⟩
    rw [List.cons_append, List.cons_append, ← hlinks]
    rfl
  | case2 p d q ts hp hlink =>
    cases h
    exact ⟨[], rfl⟩
  | case3 => cases h
  | case4 p ts hts hp =>
    cases h
    exact ⟨[], rfl⟩
  | case5 => cases h
  | case6 => cases h

section

variable {keyword : Token} {ts : List Token} {location : Location} {target : Target}
  {feature : String} {args : List AgentArgument}

theorem exists_call_readCall {before : Target} {skip n : Nat}
    (h : readCall keyword before ts skip =
      (.ok (.call location target feature (some args)), n)) :
    ∃ call : AgentCall ts, n = call.length ∧ call.name.text = feature ∧
      args = splitArguments call.paren call.inner := by
  unfold readCall at h
  dsimp only at h
  split at h
  · cases h
  rename_i last hlast
  split at h
  · cases h
  rename_i hname
  split at h
  · cases h
  rename_i paren rest hrest
  split at h
  · rename_i hopen
    split at h
    · cases h
    rename_i close hmatched
    cases h
    obtain ⟨inner, closing, behind, rfl, hclose, rfl⟩ := exists_split_of_matching? hopen hmatched
    obtain ⟨links, hlinks⟩ := take_chain hlast
    generalize 2 * (chain (ts.drop skip)).length - 1 = passed at hlinks hrest ⊢
    have hpassed : ts.take (skip + passed) = ts.take skip ++ (links ++ [last]) := by
      rw [List.take_add, hlinks]
    have hsplit : ts = ts.take skip ++ links ++ last :: paren :: (inner ++ closing :: behind) := by
      conv_lhs => rw [← List.take_append_drop (skip + passed) ts, hpassed, hrest]
      simp only [List.append_assoc, List.singleton_append]
    refine ⟨⟨ts.take skip ++ links, last, paren, inner, closing, behind, hsplit, ?_, hopen, hclose,
      hmatched⟩, ?_, rfl, ?_⟩
    · simpa using hname
    · have hlt : skip + passed < ts.length := by
        rw [← List.drop_eq_nil_iff.not.trans Nat.not_le, hrest]
        exact List.cons_ne_nil _ _
      have hlength := congrArg List.length hpassed
      rw [List.length_take_of_le (Nat.le_of_lt hlt)] at hlength
      simp only [AgentCall.length, List.length_append, List.length_cons, List.length_nil]
        at hlength ⊢
      omega
    · rw [Nat.add_sub_cancel, List.take_left]
  · cases h

/-- **An agent with arguments is written as a call behind its keyword**, and takes all of it. -/
theorem exists_call_readAgent {n : Nat}
    (h : readAgent keyword ts = (.ok (.call location target feature (some args)), n)) :
    ∃ call : AgentCall ts, n = call.length ∧ call.name.text = feature ∧
      args = splitArguments call.paren call.inner := by
  rcases readAgent_cases (congrArg Prod.fst h) with hinline | ⟨before, skip, hcall⟩
  · cases hinline
  · exact exists_call_readCall (hcall ▸ h)

end

/-- **Every agent in a span was read at its keyword.** -/
theorem exists_readAgent_of_mem {span : List Token} {a : Agent}
    (ha : a ∈ Construct.agents (constructs span)) :
    ∃ before keyword ts, span = before ++ keyword :: ts ∧
      keyword.isKeyword [.kwAgent] = true ∧ (readAgent keyword ts).1 = .ok a := by
  fun_induction constructs span with
  | case1 => cases ha
  | case2 t rest hkeyword reading ih =>
    have hlater (ha : a ∈ Construct.agents (constructs (rest.drop reading.2))) :
        ∃ before keyword ts, t :: rest = before ++ keyword :: ts ∧
          keyword.isKeyword [.kwAgent] = true ∧ (readAgent keyword ts).1 = .ok a := by
      obtain ⟨before, keyword, ts, hsplit, hread⟩ := ih ha
      refine ⟨t :: rest.take reading.2 ++ before, keyword, ts, ?_, hread⟩
      rw [List.append_assoc, ← hsplit, List.cons_append, List.take_append_drop]
    cases hread : reading.1 with
    | ok b =>
      rw [hread] at ha
      rcases List.mem_cons.mp ha with rfl | ha
      · exact ⟨[], t, rest, rfl, hkeyword, hread⟩
      · exact hlater ha
    | error e =>
      rw [hread] at ha
      exact hlater ha
  | case3 t rest hkeyword q hq ih =>
    obtain ⟨before, keyword, ts, hsplit, hread⟩ := ih ha
    exact ⟨t :: before, keyword, ts, congrArg (t :: ·) hsplit, hread⟩
  | case4 t rest hkeyword hq ih =>
    obtain ⟨before, keyword, ts, hsplit, hread⟩ := ih ha
    exact ⟨t :: before, keyword, ts, congrArg (t :: ·) hsplit, hread⟩

/-! ## 5. The agents of a text -/

theorem Construct.agents_flatMap {α : Type} (as : List α) (f : α → List Construct) :
    agents (as.flatMap f) = as.flatMap fun a => agents (f a) :=
  List.filterMap_flatMap

/-- The invariants of a text were read in it. -/
theorem Portioned.exists_readInvariant {c : Cursor} {ts : List Token} {fs : List Feature}
    {is : List Invariant} (h : Portioned c ts fs is) :
    ∀ i ∈ is, ∃ n, i = (readInvariant (c.drop n)).value.1 := by
  obtain ⟨ps, hps, -, rfl⟩ := h
  intro i hi
  obtain ⟨p, hp, hsome⟩ := List.mem_filterMap.mp hi
  obtain ⟨us, -, hread⟩ := hps.exists_stretch p hp
  cases hread with
  | declaration h => cases hsome
  | invariant n =>
    cases hsome
    exact ⟨n, rfl⟩

/-- Invariants that count as one have the agents of all their expressions. -/
theorem Invariant.agents_merge? {is : List Invariant}
    (h : ∀ i ∈ is, i.agents = Construct.agents i.block.constructs) :
    ∀ i ∈ merge? is, i.agents = Construct.agents i.block.constructs := by
  intro i hi
  cases is with
  | nil => cases hi
  | cons j is =>
    cases hi
    unfold AssertionBlock.constructs
    rw [List.flatMap_assoc, Construct.agents_flatMap]
    exact List.flatMap_congr h

/-- **The agents of a tree are those of its spans.** -/
theorem agents_parse (x : Lexed) : x.parse.tree.agents =
    x.parse.tree.spans.flatMap fun span => Construct.agents (constructs span) := by
  refine Tree.flatMap_spans _ (fun c hc f hf => ?_) fun c hc i hi => ?_
  · obtain rfl : c = (readClass (Cursor.ofLexed x)).value := List.mem_singleton.mp hc
    obtain ⟨n, first, d, hd, hf⟩ := readFrom_readClass hf
    rw [(searched_readDeclaration hd hf).agents, Construct.agents_flatMap]
  · obtain rfl : c = (readClass (Cursor.ofLexed x)).value := List.mem_singleton.mp hc
    obtain ⟨is, hmerged, hportions⟩ := portioned_readClass (Cursor.ofLexed x)
    have hagents := Invariant.agents_merge? fun j (hj : j ∈ is) => by
      obtain ⟨n, rfl⟩ := hportions.exists_readInvariant j hj
      rfl
    rw [hmerged] at hi
    rw [hagents i (Option.mem_toList.mp hi), AssertionBlock.constructs_eq,
      Construct.agents_flatMap]

/-- **Agent arguments are split without loss.**  All tokens `inner` behind a parenthesis are cut at
the commas outside brackets: there are no arguments if there are no tokens, and otherwise one more
than such commas, which join them to `inner` again.  The match of an opening bracket is the first
place up to which as many are closed as were opened since.  In every span an agent that has
arguments is written as a call behind its keyword: the reading ends at the closing parenthesis, and
the arguments are what is cut between the parentheses.  The agents of every text are those of its
spans. -/
theorem agent_arguments_rejoin (raw path : String) (paren : Token) (inner : List Token) :
    CutAtCommas paren inner (splitArguments paren inner) ∧
    (∀ (opening close : Symbol) (span : List Token) (start : Nat), opening ≠ close →
      (∃ t ∈ span[start]?, t.isSymbol [opening] = true) →
      (matching? opening close (span.drop start)).map (start + ·) =
        (List.range' start (span.length - start)).find? fun i =>
          symbolCount [opening] ((span.take (i + 1)).drop start) ==
            symbolCount [close] ((span.take (i + 1)).drop start)) ∧
    (∀ span location target feature args,
      .call location target feature (some args) ∈ Construct.agents (constructs span) →
      ∃ before keyword ts, span = before ++ keyword :: ts ∧
        keyword.isKeyword [.kwAgent] = true ∧ keyword.location = location ∧
        ∃ call : AgentCall ts, call.name.text = feature ∧
          readAgent keyword ts =
            (.ok (.call location target feature (some args)), call.length) ∧
          CutAtCommas call.paren call.inner args) ∧
    let tree := (Source.ofString raw path).lex.parse.tree
    tree.agents = tree.spans.flatMap fun span => Construct.agents (constructs span) := by
  refine ⟨cutAtCommas_splitArguments paren inner, ?_, ?_, agents_parse _⟩
  · rintro opening close span start hne ⟨t, ht, hopen⟩
    exact matching?_eq_find? hne ht hopen
  · intro span location target feature args ha
    obtain ⟨before, keyword, ts, hsplit, hkeyword, hread⟩ := exists_readAgent_of_mem ha
    obtain ⟨call, hlength, hfeature, rfl⟩ := exists_call_readAgent (Prod.ext hread rfl)
    exact ⟨before, keyword, ts, hsplit, hkeyword, (location_readAgent hread).symm, call, hfeature,
      Prod.ext hread hlength, cutAtCommas_splitArguments _ _⟩

/-- `? , f ( x , y )`. -/
def sampleArguments : List Token :=
  [.operator .question, .operator .comma, .identifier, .operator .openParen, .identifier,
    .operator .comma, .identifier, .operator .closeParen].map sampleToken

/-- `agent g ( ? , f ( x , y ) )`: two arguments, the first one open. -/
theorem agent_arguments_rejoin_nested :
    let paren := sampleToken (.operator .openParen)
    let list := paren :: (sampleArguments ++ [sampleToken (.operator .closeParen)])
    let span := sampleToken (.keyword .kwAgent) :: sampleToken .identifier :: list
    (splitArguments paren sampleArguments).length = 2 ∧
      (splitArguments paren sampleArguments).map AgentArgument.isOpen = [true, false] ∧
      matching? .openParen .closeParen list = some 9 ∧
      ∃ before keyword ts, span = before ++ keyword :: ts ∧ ∃ call : AgentCall ts,
        CutAtCommas call.paren call.inner (splitArguments paren sampleArguments) := by
  intro paren list span
  obtain ⟨hcut, hmatch, hagent, -⟩ :=
    agent_arguments_rejoin "class A end" "a.e" paren sampleArguments
  refine ⟨?_, by decide, ?_, ?_⟩
  · have hlength := hcut.length (by decide)
    have hcommas : (outerCommas sampleArguments).length = 1 := by decide
    rw [hlength, hcommas]
  · have hmatch := hmatch .openParen .closeParen list 0 (by decide) ⟨paren, rfl, rfl⟩
    have hplace : (List.range' 0 (list.length - 0)).find? (fun i =>
        symbolCount [.openParen] ((list.take (i + 1)).drop 0) ==
          symbolCount [.closeParen] ((list.take (i + 1)).drop 0)) = some 9 := by decide
    rw [hplace] at hmatch
    obtain ⟨n, hn, hnine⟩ := Option.map_eq_some_iff.mp hmatch
    rw [Nat.zero_add] at hnine
    rw [← hnine]
    exact hn
  · have hfound : Construct.agents (constructs span) =
        [.call ⟨1, 1, 0⟩ .implicit "" (some (splitArguments paren sampleArguments))] := by cbv
    obtain ⟨before, keyword, ts, hsplit, -, -, call, -, -, hcall⟩ :=
      hagent span _ _ _ _ (hfound ▸ List.mem_singleton_self _)
    exact ⟨before, keyword, ts, hsplit, call, hcall⟩

end ContractLint
