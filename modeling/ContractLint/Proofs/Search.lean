/-
# The search through a feature

The agents and quantifiers of a feature are looked for statement by statement, and assertion by
assertion.  The search goes from token to token, but at an agent it goes on behind what the agent
takes: its target, its chain of calls and its arguments.  What stands in there is never looked at.
`reaches` says of each place of a span whether the search gets there.

* `countP_constructs`: in a span whose tokens all stand at different locations, a construct is found
  once if the search reaches its first token, and not at all otherwise.
* `constructs_found`: for every feature of every text.  Each quantifier symbol, and each keyword
  that begins a complete agent, is the location of exactly one quantifier or agent of the feature if
  the search reaches it, and of none if it does not.
* `agent_overlooked`: an agent among the arguments of another one is not found.
-/
import ContractLint.Proofs.Place
import ContractLint.Proofs.Point

namespace ContractLint

/-! ## 1. The search through a span -/

/-- The number of tokens that the search passes over behind `t`: those that belong to an agent. -/
def stride (t : Token) (ts : List Token) : Nat :=
  if t.isKeyword [.kwAgent] then (readAgent t ts).2 else 0

/-- Whether the search looks at the first token of `rest`, when `before` stands in front of it and
the first `skip` tokens are passed over. -/
def reaches (rest : List Token) : Nat → List Token → Bool
  | skip, [] => skip == 0
  | 0, t :: before => reaches rest (stride t (before ++ rest)) before
  | skip + 1, _ :: before => reaches rest skip before

namespace Construct

/-- The location of an agent or a quantifier. -/
def location? : Construct → Option Location
  | agent a => some a.location
  | quantifier q => some q.location
  | fault _ => none

theorem mem_places {c : Construct} {l : Location} (h : c.location? = some l) : l ∈ c.places := by
  cases c with
  | agent a =>
    cases h
    cases a <;> exact List.mem_cons_self
  | quantifier q =>
    cases h
    exact List.mem_cons_self
  | fault e => cases h

def isAgentAt (l : Location) : Construct → Bool
  | agent a => a.location == l
  | _ => false

def isQuantifierAt (l : Location) : Construct → Bool
  | quantifier q => q.location == l
  | _ => false

theorem location?_of_isAgentAt {l : Location} {c : Construct} (h : c.isAgentAt l = true) :
    c.location? = some l := by
  cases c with
  | agent a => exact congrArg some (eq_of_beq h)
  | quantifier q => cases h
  | fault e => cases h

theorem location?_of_isQuantifierAt {l : Location} {c : Construct} (h : c.isQuantifierAt l = true) :
    c.location? = some l := by
  cases c with
  | agent a => cases h
  | quantifier q => exact congrArg some (eq_of_beq h)
  | fault e => cases h

theorem count_agents (l : Location) (cs : List Construct) :
    ((agents cs).map Agent.location).count l = cs.countP (isAgentAt l) := by
  induction cs with
  | nil => rfl
  | cons c cs ih =>
    cases c <;> simp_all [agents, isAgentAt, List.count_cons, List.countP_cons]

theorem count_quantifiers (l : Location) (cs : List Construct) :
    ((quantifiers cs).map Quantifier.location).count l = cs.countP (isQuantifierAt l) := by
  induction cs with
  | nil => rfl
  | cons c cs ih =>
    cases c <;> simp_all [quantifiers, isQuantifierAt, List.count_cons, List.countP_cons]

end Construct

theorem location_readCall {keyword : Token} {target : Target} {ts : List Token} {skip : Nat}
    {a : Agent} (h : (readCall keyword target ts skip).1 = .ok a) :
    a.location = keyword.location := by
  unfold readCall at h
  dsimp only at h
  split at h
  · cases h
  split at h
  · cases h
  split at h
  · cases h
    rfl
  split at h
  · split at h
    · cases h
    · cases h
      rfl
  · cases h
    rfl

/-- An agent is located at its keyword. -/
theorem location_readAgent {keyword : Token} {ts : List Token} {a : Agent}
    (h : (readAgent keyword ts).1 = .ok a) : a.location = keyword.location := by
  rcases readAgent_cases h with rfl | ⟨target, skip, hcall⟩
  · rfl
  · exact location_readCall (hcall ▸ h)

theorem location?_ofAgent {keyword : Token} {ts : List Token} {l : Location}
    (h : (Construct.ofAgent (readAgent keyword ts).1).location? = some l) :
    l = keyword.location := by
  cases hread : (readAgent keyword ts).1 with
  | ok a =>
    rw [hread] at h
    cases h
    exact location_readAgent hread
  | error e =>
    rw [hread] at h
    cases h

section Span

variable {p : Construct → Bool} {l : Location}

/-- Nothing is found where no token stands. -/
theorem countP_constructs_eq_zero (hp : ∀ c, p c = true → c.location? = some l) {ts : List Token}
    (hl : l ∉ ts.map Token.location) : (constructs ts).countP p = 0 := by
  refine List.countP_eq_zero.mpr fun c hc hpc => hl ?_
  exact places_constructs ts (List.mem_flatMap.mpr ⟨c, hc, Construct.mem_places (hp c hpc)⟩)

/-- A token at another location adds nothing, and the search goes on behind what it takes. -/
theorem countP_constructs_cons (hp : ∀ c, p c = true → c.location? = some l) {t : Token}
    (ht : t.location ≠ l) (ts : List Token) :
    (constructs (t :: ts)).countP p = (constructs (ts.drop (stride t ts))).countP p := by
  rw [constructs, stride]
  split
  · have hhead : p (.ofAgent (readAgent t ts).1) = false := by
      by_contra h
      exact ht (location?_ofAgent (hp _ (Bool.not_eq_false _ ▸ h))).symm
    simp [hhead]
  · split
    · rename_i q hq
      have hhead : p (.quantifier (readQuantifier q t.location ts)) = false := by
        by_contra h
        have hlocation := hp _ (Bool.not_eq_false _ ▸ h)
        exact ht (Option.some.inj hlocation)
      simp [hhead]
    · rfl

/-- **What stands at a location is found from there on exactly if the search reaches it.** -/
theorem countP_constructs (hp : ∀ c, p c = true → c.location? = some l) {t : Token}
    {after : List Token} (hafter : l ∉ after.map Token.location) :
    ∀ (before : List Token) (skip : Nat), l ∉ before.map Token.location →
    (constructs ((before ++ t :: after).drop skip)).countP p =
      if reaches (t :: after) skip before then (constructs (t :: after)).countP p else 0
  | [], 0, _ => rfl
  | [], skip + 1, _ => by
    have hdrop : l ∉ (after.drop skip).map Token.location := fun h =>
      hafter (List.map_subset _ (List.drop_subset _ _) h)
    exact countP_constructs_eq_zero hp hdrop
  | u :: before, 0, hbefore => by
    have hu : u.location ≠ l := fun h => hbefore (h ▸ List.mem_cons_self)
    have hbefore : l ∉ before.map Token.location := fun h => hbefore (List.mem_cons_of_mem _ h)
    rw [List.cons_append, List.drop_zero, countP_constructs_cons hp hu]
    exact countP_constructs hp hafter before _ hbefore
  | _ :: before, skip + 1, hbefore =>
    countP_constructs hp hafter before skip fun h => hbefore (List.mem_cons_of_mem _ h)

end Span

/-- A quantifier symbol gives one quantifier. -/
theorem countP_quantifier {t : Token} {ts : List Token} (ht : t.quantity?.isSome = true)
    (hts : t.location ∉ ts.map Token.location) :
    (constructs (t :: ts)).countP (Construct.isQuantifierAt t.location) = 1 := by
  have hagent : t.isKeyword [.kwAgent] = false := by
    unfold Token.quantity? at ht
    split at ht
    · rename_i s hs
      simp [Token.isKeyword, hs]
    · cases ht
  have hrest := countP_constructs_eq_zero
    (fun _ => Construct.location?_of_isQuantifierAt (l := t.location)) hts
  obtain ⟨q, hq⟩ := Option.isSome_iff_exists.mp ht
  rw [constructs]
  simp [hagent, hq, hrest, Construct.isQuantifierAt, readQuantifier]

/-- The keyword of a complete agent gives one agent. -/
theorem countP_agent {t : Token} {ts : List Token} (ht : t.isKeyword [.kwAgent] = true)
    (hcomplete : (readAgent t ts).1.isOk = true) (hts : t.location ∉ ts.map Token.location) :
    (constructs (t :: ts)).countP (Construct.isAgentAt t.location) = 1 := by
  have hdrop : t.location ∉ (ts.drop (readAgent t ts).2).map Token.location := fun h =>
    hts (List.map_subset _ (List.drop_subset _ _) h)
  have hrest := countP_constructs_eq_zero
    (fun _ => Construct.location?_of_isAgentAt (l := t.location)) hdrop
  cases hread : (readAgent t ts).1 with
  | error e =>
    rw [hread] at hcomplete
    cases hcomplete
  | ok a =>
    have ha := location_readAgent hread
    rw [constructs]
    simp [ht, hread, hrest, Construct.ofAgent, Construct.isAgentAt, ha]

/-! ## 2. Statements and assertions -/

theorem append_flatten_grouped : ∀ ms : List (Bool × Token),
    (grouped ms).1 ++ (grouped ms).2.flatten = ms.map Prod.snd
  | [] => rfl
  | (begins, t) :: ms => by
    have ih := append_flatten_grouped ms
    cases begins <;> simp [grouped, ih]

/-- The tokens of the statements are those of the span, without separators and those before the
first statement. -/
theorem flatten_statements (ts : List Token) : (statements ts).flatten =
    (grouped (marked {} none ts)).2.flatten.filter fun t => !isSeparator t && !t.isEof := by
  rw [statements, List.filter_flatten]

theorem sublist_flatten_statements (ts : List Token) : (statements ts).flatten.Sublist ts := by
  have hparts := append_flatten_grouped (marked {} none ts)
  rw [map_snd_marked] at hparts
  rw [flatten_statements]
  refine List.filter_sublist.trans ?_
  conv_rhs => rw [← hparts]
  exact List.sublist_append_right _ _

theorem kind_of_isSymbol {t : Token} {s : Symbol} (h : t.isSymbol [s] = true) :
    t.kind = .operator s := by
  unfold Token.isSymbol at h
  split at h
  · rename_i s' hkind
    rw [List.contains_iff_mem, List.mem_singleton] at h
    rw [hkind, h]
  · cases h

theorem kind_of_isSeparator {t : Token} (h : isSeparator t = true) :
    t.kind = .operator .semicolon :=
  kind_of_isSymbol h

/-- A separator opens and closes nothing. -/
theorem Nesting.feed_separator {t : Token} (h : isSeparator t = true) (n : Nesting)
    (next : Option Token) : n.feed t next = n := by
  simp [feed, kind_of_isSeparator h, feedSymbol]

/-- Only separators stand before the first statement, and where there is none, the end of the
text. -/
theorem dropped_of_mem_grouped : ∀ {ts : List Token} {prev : Option Token},
    (∀ t ∈ ts.dropLast, t.isEof = false) → (∀ p ∈ prev, isSeparator p = true) →
    ∀ t ∈ (grouped (marked {} prev ts)).1, isSeparator t = true ∨ t.isEof = true
  | [], _, _, _, t, ht => absurd ht List.not_mem_nil
  | u :: ts, prev, heof, hprev, t, ht => by
    rw [marked] at ht
    split at ht
    · rename_i hu
      cases ts with
      | nil =>
        obtain rfl := List.mem_singleton.mp ht
        exact .inr hu
      | cons v ts =>
        rw [heof u List.mem_cons_self] at hu
        cases hu
    cases hu : isSeparator u with
    | false =>
      have hbegins : beginsStatement {} prev u = true := by
        cases prev with
        | none => simp [beginsStatement, hu]
        | some p => simp [beginsStatement, hu, hprev p rfl, Nesting.level]
      simp [grouped, hbegins] at ht
    | true =>
      have hbegins : beginsStatement {} prev u = false := by simp [beginsStatement, hu]
      rw [hbegins, Nesting.feed_separator hu] at ht
      rcases List.mem_cons.mp ht with rfl | ht
      · exact .inl hu
      · refine dropped_of_mem_grouped (fun v hv => heof v ?_) ?_ t ht
        · cases ts with
          | nil => cases hv
          | cons w ts => exact List.mem_cons_of_mem _ hv
        · intro p hp
          cases hp
          exact hu

/-- Only separators stand before the first statement. -/
theorem isSeparator_of_mem_grouped {ts : List Token} {prev : Option Token}
    (heof : ∀ t ∈ ts, t.isEof = false) (hprev : ∀ p ∈ prev, isSeparator p = true) :
    ∀ t ∈ (grouped (marked {} prev ts)).1, isSeparator t = true := by
  intro t ht
  have hmem : t ∈ ts := by
    have hgrouped := (mem_of_mem_grouped (marked {} prev ts)).1 t ht
    rwa [map_snd_marked] at hgrouped
  refine (dropped_of_mem_grouped (fun u hu => heof u (List.mem_of_mem_dropLast hu)) hprev t
    ht).resolve_right ?_
  rw [heof t hmem]
  exact Bool.false_ne_true

/-- **Every token of a span is in one of its statements**, separators apart. -/
theorem exists_statement {ts : List Token} {t : Token} (heof : ∀ u ∈ ts, u.isEof = false)
    (ht : t ∈ ts) (hseparator : isSeparator t = false) : ∃ s ∈ statements ts, t ∈ s := by
  have hparts := append_flatten_grouped (marked {} none ts)
  rw [map_snd_marked] at hparts
  rw [← hparts] at ht
  refine List.mem_flatten.mp ?_
  rw [flatten_statements]
  rcases List.mem_append.mp ht with ht | ht
  · have hall := isSeparator_of_mem_grouped heof (fun p hp => by cases hp) t ht
    rw [hseparator] at hall
    cases hall
  · have hmem : t ∈ ts := hparts ▸ List.mem_append_right _ ht
    exact List.mem_filter.mpr ⟨ht, by rw [hseparator, heof t hmem]; rfl⟩

theorem isSeparator_eq_false {t : Token}
    (h : t.quantity?.isSome = true ∨ t.isKeyword [.kwAgent] = true) : isSeparator t = false := by
  unfold isSeparator Token.isSymbol
  split
  · rename_i s hs
    rcases h with h | h
    · cases s <;> simp_all [Token.quantity?, Quantity.ofSymbol?]
    · simp [Token.isKeyword, hs] at h
  · rfl

/-- The expressions of a block. -/
def AssertionBlock.expressions (b : AssertionBlock) : List (List Token) :=
  b.assertions.map Assertion.expression

theorem AssertionBlock.constructs_eq (b : AssertionBlock) :
    b.constructs = b.expressions.flatMap ContractLint.constructs := by
  rw [expressions, List.flatMap_map]
  rfl

theorem Assertion.sublist_ofTokens (t : Token) (ts : List Token) :
    (ofTokens t ts).expression.Sublist (t :: ts) := by
  unfold ofTokens
  split
  · split
    · exact (List.sublist_cons_self _ _).trans (List.sublist_cons_self _ _)
    · exact List.Sublist.refl _
  · exact List.Sublist.refl _

theorem sublist_flatten_assertions (span : List Token) :
    ((assertions span).map Assertion.expression).flatten.Sublist span := by
  refine List.Sublist.trans ?_ (sublist_flatten_statements span)
  unfold assertions
  induction statements span with
  | nil => exact List.Sublist.refl _
  | cons s ss ih =>
    cases s with
    | nil => exact ih
    | cons t ts => exact (Assertion.sublist_ofTokens t ts).append ih

/-! ## 3. The spans of a routine -/

namespace Cursor

theorem take_append_tokens_drop (c : Cursor) (n : Nat) :
    c.take n ++ (c.drop n).tokens = c.tokens := by
  rw [take, tokens, tokens, drop, ← List.map_append, List.take_append_drop]

theorem sublist_tokens_drop (c : Cursor) (n : Nat) : (c.drop n).tokens.Sublist c.tokens :=
  (List.drop_sublist _ _).map _

theorem sublist_take (c : Cursor) (n : Nat) : (c.take n).Sublist c.tokens :=
  (List.take_sublist _ _).map _

end Cursor

theorem sublist_readBlock? (g : BlockGrammar) (keyword : Keyword) (c : Cursor) :
    ((readBlock? g keyword c).1.toList.flatMap AssertionBlock.expressions).flatten.Sublist
      (c.take (readBlock? g keyword c).2) := by
  unfold readBlock?
  split
  · dsimp only
    rw [Option.toList_some, List.flatMap_singleton]
    exact (sublist_flatten_assertions _).trans (c.sublist_take_add _ _)
  · exact List.nil_sublist _

/-- The spans that are searched in a body and a contract, in the order of the search. -/
def searchedSpans (body : Body) (precondition postcondition : Option AssertionBlock) :
    List (List Token) :=
  statements body.tokens ++ precondition.toList.flatMap AssertionBlock.expressions ++
    postcondition.toList.flatMap AssertionBlock.expressions

def Routine.spans (r : Routine) : List (List Token) :=
  searchedSpans r.body r.precondition r.postcondition

theorem Routine.constructs_eq (r : Routine) :
    r.constructs = r.spans.flatMap ContractLint.constructs := by
  have hblocks : ∀ bs : List AssertionBlock, bs.flatMap AssertionBlock.constructs =
      (bs.flatMap AssertionBlock.expressions).flatMap ContractLint.constructs := by
    intro bs
    rw [List.flatMap_assoc, funext AssertionBlock.constructs_eq]
  simp only [constructs, spans, searchedSpans, List.flatMap_append, hblocks]

/-- **The spans of a routine are disjoint pieces of the text.**  The contract stands around the body
but is searched after it, so they are so in another order. -/
theorem subperm_readRoutine {c : Cursor} {routine : Taken Routine}
    (h : readRoutine c = .ok routine) :
    routine.value.spans.flatten.Subperm c.tokens ∧ routine.value.body.tokens ⊆ c.tokens := by
  obtain ⟨n₁, n₂, n₄, n₅, body, hrequire, -, hbody, hvalue, hensure, -, -, -⟩ := readRoutine_cases h
  have hpre := sublist_readBlock? .precondition .kwRequire c
  have hpost := sublist_readBlock? .postcondition .kwEnsure (c.drop (n₁ + n₂ + body.taken))
  rw [hrequire] at hpre
  rw [hensure] at hpost
  have hinstructions := sublist_readBody hbody
  -- From the last piece to the first, each in front of what is left of the text.
  have hlast := hpost.trans (Cursor.sublist_take _ _)
  rw [Cursor.drop_add] at hlast
  have hbodyPost := ((sublist_flatten_statements _).trans hinstructions).append hlast
  rw [Cursor.take_append_tokens_drop, Cursor.drop_add] at hbodyPost
  have hall := hpre.append (hbodyPost.trans (Cursor.sublist_tokens_drop _ n₂))
  rw [Cursor.take_append_tokens_drop] at hall
  refine ⟨⟨_, ?_, hall⟩, ?_⟩
  · simp only [Routine.spans, searchedSpans, List.flatten_append, hvalue]
    rw [← List.append_assoc]
    exact List.perm_append_comm.append_right _
  · rw [hvalue]
    exact List.Subset.trans (tokens_readBody hbody) (c.tokens_drop _)

/-! ## 4. The features of a class -/

/-- `f` belongs to a declaration that is read somewhere from `c` on. -/
def Feature.ReadFrom (f : Feature) (c : Cursor) : Prop :=
  ∃ n first d, readDeclaration first (c.drop n) = .ok d ∧ f ∈ d.value.features

theorem Feature.ReadFrom.of_drop {f : Feature} {c : Cursor} {n : Nat} (h : f.ReadFrom (c.drop n)) :
    f.ReadFrom c := by
  obtain ⟨m, first, d, hd, hf⟩ := h
  exact ⟨n + m, first, d, by rwa [Cursor.drop_add], hf⟩

theorem readFrom_readFeatures {c : Cursor} {f : Feature} (hf : f ∈ (readFeatures c).value) :
    f.ReadFrom c := by
  fun_induction readFeatures c with
  | case1 => cases hf
  | case2 => cases hf
  | case3 c i is hc hpos hi d hd =>
    rename_i ih
    rcases List.mem_append.mp hf with hf | hf
    · exact ⟨0, i, d, hd, hf⟩
    · exact (ih hf).of_drop
  | case4 c i is hc hpos hi e he n =>
    rename_i ih
    exact (ih hf).of_drop

theorem readFrom_readPart {i : Item} {is : List Item} {c : Cursor} {clause : Clause} {f : Feature}
    (hclause : (readPart i is c).value = .clause clause) (hf : f ∈ clause.features) :
    f.ReadFrom c := by
  generalize hr : readPart i is c = r at hclause
  cases readPart_cases hr with
  | features =>
    cases hclause
    exact (readFrom_readFeatures hf).of_drop
  | loose =>
    cases hclause
    exact readFrom_readFeatures hf
  | _ => cases hclause

theorem readFrom_readParts {c : Cursor} {clause : Clause} {f : Feature}
    (hclause : .clause clause ∈ (readParts c).value) (hf : f ∈ clause.features) : f.ReadFrom c := by
  fun_induction readParts c with
  | case1 => cases hclause
  | case2 => cases hclause
  | case3 c i is hc hend hpos htaken part =>
    rename_i ih
    rcases List.mem_cons.mp hclause with hpart | hclause
    · exact readFrom_readPart hpart.symm hf
    · exact (ih hclause).of_drop

/-- **Every feature of a class comes from a declaration that was read.** -/
theorem readFrom_readClass {c : Cursor} {f : Feature} (hf : f ∈ (readClass c).value.features) :
    f.ReadFrom c := by
  obtain ⟨clause, hclause, hf⟩ := List.mem_flatMap.mp hf
  obtain ⟨part, hpart, hsome⟩ := List.mem_filterMap.mp hclause
  cases part <;> cases hsome
  exact (readFrom_readParts hpart hf).of_drop

/-! ## 5. What is found in a feature -/

/-- The spans of a feature that are searched. -/
def Feature.spans (f : Feature) : List (List Token) :=
  searchedSpans f.body f.precondition f.postcondition

/-- The agents and quantifiers of a feature are those of its spans, and its spans are disjoint
pieces of `ts`. -/
structure Feature.Searched (f : Feature) (ts : List Token) : Prop where
  agents : f.agents = Construct.agents (f.spans.flatMap constructs)
  quantifiers : f.quantifiers = Construct.quantifiers (f.spans.flatMap constructs)
  pieces : f.spans.flatten.Subperm ts
  body : f.body.tokens ⊆ ts

namespace Feature.Searched

theorem mono {f : Feature} {ts us : List Token} (h : f.Searched ts) (hsublist : ts.Sublist us) :
    f.Searched us where
  agents := h.agents
  quantifiers := h.quantifiers
  pieces := h.pieces.trans hsublist.subperm
  body := List.Subset.trans h.body hsublist.subset

/-- In a feature without a routine there is nothing to search. -/
theorem of_absent {f : Feature} (hbody : f.body = .absent) (hpre : f.precondition = none)
    (hpost : f.postcondition = none) (hagents : f.agents = []) (hquantifiers : f.quantifiers = [])
    (ts : List Token) : f.Searched ts := by
  have hspans : f.spans = [] := by
    rw [Feature.spans, hbody, hpre, hpost]
    decide
  refine ⟨?_, ?_, ?_, ?_⟩
  · rw [hagents, hspans]
    rfl
  · rw [hquantifiers, hspans]
    rfl
  · rw [hspans]
    exact List.nil_subperm
  · rw [hbody]
    exact List.nil_subset _

end Feature.Searched

theorem searched_readDeclaration {first : Item} {c : Cursor} {d : Taken Declaration} {f : Feature}
    (h : readDeclaration first c = .ok d) (hf : f ∈ d.value.features) : f.Searched c.tokens := by
  obtain ⟨signature, -, last, hd | hd | ⟨n, routine, hroutine, hd⟩⟩ := readDeclaration_cases h
  · rw [hd] at hf
    obtain ⟨name, -, rfl⟩ := List.mem_map.mp hf
    exact .of_absent rfl rfl rfl rfl rfl _
  · rw [hd] at hf
    obtain ⟨name, -, rfl⟩ := List.mem_map.mp hf
    exact .of_absent rfl rfl rfl rfl rfl _
  · rw [hd] at hf
    obtain ⟨name, -, rfl⟩ := List.mem_map.mp hf
    obtain ⟨hpieces, hbody⟩ := subperm_readRoutine hroutine
    refine Feature.Searched.mono ⟨?_, ?_, hpieces, hbody⟩ (c.sublist_tokens_drop n)
    · exact congrArg Construct.agents routine.value.constructs_eq
    · exact congrArg Construct.quantifiers routine.value.constructs_eq

/-- The tokens of the spans of a feature stand at different locations. -/
theorem Feature.Searched.nodup {f : Feature} {ts : List Token} (h : f.Searched ts)
    (hts : (ts.map Token.location).Nodup) : (f.spans.flatten.map Token.location).Nodup := by
  obtain ⟨us, hperm, hsublist⟩ := h.pieces
  exact (hperm.map _).nodup_iff.mp (hts.sublist (hsublist.map _))

/-- What is found at a token of one span is not found in any other. -/
theorem countP_spans {ss : List (List Token)} (hss : (ss.flatten.map Token.location).Nodup)
    {before after : List Token} {t : Token} (hs : before ++ t :: after ∈ ss)
    {p : Construct → Bool} (hp : ∀ c, p c = true → c.location? = some t.location)
    (hone : t.location ∉ after.map Token.location → (constructs (t :: after)).countP p = 1) :
    (ss.flatMap constructs).countP p = if reaches (t :: after) 0 before then 1 else 0 := by
  have hzero : ∀ us : List (List Token), t.location ∉ us.flatten.map Token.location →
      (us.flatMap constructs).countP p = 0 := by
    intro us hus
    induction us with
    | nil => rfl
    | cons u us ih =>
      simp only [List.flatten_cons, List.map_append, List.mem_append, not_or] at hus
      rw [List.flatMap_cons, List.countP_append, countP_constructs_eq_zero hp hus.1, ih hus.2]
  obtain ⟨earlier, later, rfl⟩ := List.append_of_mem hs
  simp only [List.flatten_append, List.flatten_cons, List.map_append, List.map_cons] at hss
  obtain ⟨-, hspan, hearlier⟩ := List.nodup_append.mp hss
  obtain ⟨hspan, -, hlater⟩ := List.nodup_append.mp hspan
  obtain ⟨-, hafter, hbefore⟩ := List.nodup_append.mp hspan
  have hafter : t.location ∉ after.map Token.location := (List.nodup_cons.mp hafter).1
  have hbefore : t.location ∉ before.map Token.location := fun h =>
    hbefore _ h _ List.mem_cons_self rfl
  have hearlier : t.location ∉ earlier.flatten.map Token.location := fun h =>
    hearlier _ h _ (by simp) rfl
  have hlater : t.location ∉ later.flatten.map Token.location := fun h =>
    hlater _ (by simp) _ h rfl
  have hcount := countP_constructs hp (t := t) hafter before 0 hbefore
  rw [List.drop_zero, hone hafter] at hcount
  rw [List.flatMap_append, List.flatMap_cons, List.countP_append, List.countP_append,
    hzero earlier hearlier, hzero later hlater, hcount, Nat.zero_add, Nat.add_zero]

/-- **No construct that the search reaches is overlooked.**  In every feature of the tree of every
text, the body is searched from its first token to its last.  In each of its statements and
assertions, a quantifier symbol is the location of exactly one quantifier of the feature, and the
keyword of a complete agent is the location of exactly one agent, if no agent before it takes it in;
otherwise it is the location of none. -/
theorem constructs_found (raw path : String) (f : Feature)
    (hf : f ∈ (Source.ofString raw path).lex.parse.tree.classes.flatMap ClassDecl.features) :
    (∀ t ∈ f.body.tokens, t.quantity?.isSome = true ∨ t.isKeyword [.kwAgent] = true →
      ∃ s ∈ statements f.body.tokens, t ∈ s) ∧
    ∀ before t after, before ++ t :: after ∈ f.spans →
      (t.quantity?.isSome = true → (f.quantifiers.map Quantifier.location).count t.location =
        if reaches (t :: after) 0 before then 1 else 0) ∧
      (t.isKeyword [.kwAgent] = true → (readAgent t after).1.isOk = true →
        (f.agents.map Agent.location).count t.location =
          if reaches (t :: after) 0 before then 1 else 0) := by
  have hf : f ∈ (readClass (Cursor.ofLexed (Source.ofString raw path).lex)).value.features := by
    simpa [Lexed.parse] using hf
  obtain ⟨n, first, d, hd, hf⟩ := readFrom_readClass hf
  have hsearched := (searched_readDeclaration hd hf).mono (Cursor.sublist_tokens_drop _ n)
  have hnodup := hsearched.nodup (Source.ofString raw path).nodup_location_tokens
  refine ⟨fun t ht hbegins => ?_, fun before t after hspan => ⟨fun hquantity => ?_, ?_⟩⟩
  · refine exists_statement (fun u hu => not_isEof_of_mem_tokens (hsearched.body hu)) ht ?_
    exact isSeparator_eq_false hbegins
  · rw [hsearched.quantifiers, Construct.count_quantifiers]
    exact countP_spans hnodup hspan (fun _ => Construct.location?_of_isQuantifierAt)
      (countP_quantifier hquantity)
  · intro hagent hcomplete
    rw [hsearched.agents, Construct.count_agents]
    exact countP_spans hnodup hspan (fun _ => Construct.location?_of_isAgentAt)
      (countP_agent hagent hcomplete)

def sampleFeature : Feature where
  name := ⟨"f", ⟨1, 17, 16⟩⟩
  body := .instructions
    [{ kind := .identifier, text := "g", location := ⟨1, 22, 21⟩ },
      { kind := .operator .openParen, text := "(", location := ⟨1, 24, 23⟩ },
      { kind := .keyword .kwAgent, text := "agent", location := ⟨1, 25, 24⟩ },
      { kind := .identifier, text := "h", location := ⟨1, 31, 30⟩ },
      { kind := .operator .closeParen, text := ")", location := ⟨1, 32, 31⟩ }]
  agents := [.call ⟨1, 25, 24⟩ .implicit "h" none]
  endLocation := ⟨1, 34, 33⟩

def sampleCall : Lexed :=
  (Source.ofString "class A feature f do g (agent h) end end" "a.e").lex

/-- An agent that no other one takes in. -/
theorem constructs_found_call :
    sampleFeature ∈ sampleCall.parse.tree.classes.flatMap ClassDecl.features ∧
      (sampleFeature.agents.map Agent.location).count ⟨1, 25, 24⟩ = 1 :=
  have hf : sampleCall.parse.tree.classes.flatMap ClassDecl.features = [sampleFeature] := by
    cbv
  have hmem := hf ▸ List.mem_singleton_self sampleFeature
  ⟨hmem, ((constructs_found _ _ sampleFeature hmem).2 (sampleFeature.body.tokens.take 2)
    { kind := .keyword .kwAgent, text := "agent", location := ⟨1, 25, 24⟩ }
    (sampleFeature.body.tokens.drop 3) (by decide)).2 (by decide) (by decide)⟩

/-- For each agent keyword of a body: whether it begins a complete agent, and how many agents of the
feature are located at it. -/
def Feature.agentTally (f : Feature) : List (Bool × Nat) :=
  f.body.tokens.tails.filterMap fun
    | t :: ts =>
      if t.isKeyword [.kwAgent] then
        some ((readAgent t ts).1.isOk, (f.agents.map Agent.location).count t.location)
      else none
    | [] => none

/-- Of two complete agents, the one among the arguments of the other is not found. -/
theorem agent_overlooked :
    let x := (Source.ofString "class A feature f do g (agent h (agent k)) end end" "a.e").lex
    x.parse.diagnostics = [] ∧
      (x.parse.tree.classes.flatMap ClassDecl.features).map Feature.agentTally =
        [[(true, 1), (true, 0)]] := by
  cbv

end ContractLint
