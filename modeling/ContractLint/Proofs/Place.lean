/-
# Every place in a tree is the place of a token

A tree holds locations in many parts: of names, entities, clauses, assertions, agents with their
arguments, quantifiers with their cursors.  Rules report at all of them.  `ClassDecl.places` lists
them, and this file proves that none is made up: at ANY cursor, what a production puts into the tree
stands where a token stands that was still to be read (`Cursor.spots`), the end of the text
included.  The same holds of errors, of productions (`Cursor.Notices`) as well as of agents.

The proofs follow the productions.  Progress inside a production costs nothing, because the spots
further on are spots of the cursor (`Cursor.spots_drop`).  `places_readClass` is the result for a
class text.
-/
import ContractLint.Proofs.Notice
import ContractLint.Proofs.Routine

namespace ContractLint

/-! ## 1. Places -/

def Entity.place (e : Entity) : Location :=
  e.name.location

/-- The places of an assertion, those of its tokens included. -/
def Assertion.places (a : Assertion) : List Location :=
  a.location :: a.expression.map Token.location

def AssertionBlock.places (b : AssertionBlock) : List Location :=
  b.location :: b.assertions.flatMap Assertion.places

def Agent.places : Agent → List Location
  | .inline location => [location]
  | .call location _ _ arguments => location :: (arguments.getD []).map AgentArgument.location

def Quantifier.places (q : Quantifier) : List Location :=
  q.location :: q.cursor.toList.map Name.location

/-- The places of what a search through a span finds. -/
def Construct.places : Construct → List Location
  | .agent a => a.places
  | .quantifier q => q.places
  | .fault e => [e.location]

def Feature.places (f : Feature) : List Location :=
  f.name.location :: f.parameters.map Entity.place ++ f.locals.map Entity.place ++
    f.blocks.flatMap AssertionBlock.places ++ f.agents.flatMap Agent.places ++
    f.quantifiers.flatMap Quantifier.places

def Clause.places (c : Clause) : List Location :=
  c.location :: c.features.flatMap Feature.places

def Invariant.places (i : Invariant) : List Location :=
  i.block.places ++ i.agents.flatMap Agent.places ++ i.quantifiers.flatMap Quantifier.places

/-- All places of a class. -/
def ClassDecl.places (c : ClassDecl) : List Location :=
  c.name.location :: (c.generics ++ c.parents ++ c.creators).map Name.location ++
    c.clauses.flatMap Clause.places ++ c.invariant.toList.flatMap Invariant.places

/-! ## 2. Spots -/

namespace Cursor

/-- Where the tokens stand that are left, the end of the text included. -/
def spots (c : Cursor) : List Location :=
  c.allTokens.map Token.location

theorem spots_drop (c : Cursor) (n : Nat) : (c.drop n).spots ⊆ c.spots :=
  List.map_subset _ fun _ => mem_allTokens_of_drop

theorem peek_mem_spots (c : Cursor) : c.peek.location ∈ c.spots :=
  List.mem_map_of_mem c.peek_mem_allTokens

theorem spots_tokens (c : Cursor) : c.tokens.map Token.location ⊆ c.spots :=
  List.map_subset _ (List.subset_append_left _ _)

theorem take_subset (c : Cursor) (n : Nat) : c.take n ⊆ c.tokens :=
  List.map_subset _ (List.take_subset _ _)

theorem spots_take (c : Cursor) (n : Nat) : (c.take n).map Token.location ⊆ c.spots :=
  List.Subset.trans (List.map_subset _ (c.take_subset n)) c.spots_tokens

theorem take_add (c : Cursor) (m n : Nat) : c.take (m + n) = c.take m ++ (c.drop m).take n := by
  simp [take, drop, List.take_add]

/-- A piece of the next tokens. -/
theorem sublist_take_add (c : Cursor) (m n : Nat) :
    ((c.drop m).take n).Sublist (c.take (m + n)) := by
  rw [take_add]
  exact List.sublist_append_right _ _

theorem tokens_drop (c : Cursor) (n : Nat) : (c.drop n).tokens ⊆ c.tokens :=
  List.map_subset _ (List.drop_subset _ _)

/-- The fault of an attempt is at a spot. -/
theorem Notices.mem_spots {α : Type} {c : Cursor} {x : Except SyntaxError α} (h : c.Notices x)
    {e : SyntaxError} (he : x = .error e) : e.location ∈ c.spots := by
  obtain ⟨t, ht, hlocation⟩ := h e he
  rw [hlocation]
  exact List.mem_map_of_mem ht

end Cursor

/-- What holds of each part holds of all of them. -/
theorem flatMap_subset {α β : Type} {f : α → List β} {as : List α} {bs : List β}
    (h : ∀ a ∈ as, f a ⊆ bs) : as.flatMap f ⊆ bs := by
  intro b hb
  obtain ⟨a, ha, hb⟩ := List.mem_flatMap.mp hb
  exact h a ha hb

/-! ## 3. Assertions, agents and quantifiers -/

/-- The location of the assertion that tokens spell is that of the first of them. -/
theorem Assertion.location_ofTokens (t : Token) (ts : List Token) :
    (Assertion.ofTokens t ts).location = t.location := by
  unfold ofTokens
  split
  · split <;> rfl
  · rfl

theorem places_assertions (span : List Token) :
    (assertions span).flatMap Assertion.places ⊆ span.map Token.location := by
  refine flatMap_subset fun a ha => List.cons_subset.mpr ⟨?_, ?_⟩
  · obtain ⟨s, hs, hsome⟩ := List.mem_filterMap.mp ha
    cases s with
    | nil => cases hsome
    | cons t ts =>
      rw [← Option.some.inj hsome, Assertion.location_ofTokens]
      exact List.mem_map_of_mem (mem_of_mem_statements hs List.mem_cons_self)
  · exact List.map_subset _ fun t ht => mem_of_mem_assertions ha ht

/-- The groups of arguments hold only tokens from between the parentheses. -/
theorem mem_of_mem_argumentGroups : ∀ (depth : Int) (ts : List Token),
    ∀ g ∈ argumentGroups depth ts, g ⊆ ts
  | _, [], g, hg => by
    rw [List.mem_singleton.mp hg]
    exact List.nil_subset _
  | depth, t :: ts, g, hg => by
    have ih := mem_of_mem_argumentGroups (argumentDepth depth t) ts
    have hcons : ∀ g ∈ argumentGroups (argumentDepth depth t) ts, g ⊆ t :: ts :=
      fun g hg => List.Subset.trans (ih g hg) (List.subset_cons_self _ _)
    rw [argumentGroups] at hg
    split at hg
    · rcases List.mem_cons.mp hg with rfl | hg
      · exact List.nil_subset _
      · exact hcons g hg
    · split at hg
      · rw [List.mem_singleton.mp hg]
        exact List.cons_subset.mpr ⟨List.mem_cons_self, List.nil_subset _⟩
      · rename_i g' gs hgroups
        rw [hgroups] at hcons ih
        rcases List.mem_cons.mp hg with rfl | hg
        · exact List.cons_subset_cons t (ih g' List.mem_cons_self)
        · exact hcons g (List.mem_cons_of_mem _ hg)

theorem places_splitArguments (paren : Token) (inner : List Token) :
    (splitArguments paren inner).map AgentArgument.location ⊆
      (paren :: inner).map Token.location := by
  intro l hl
  obtain ⟨a, ha, rfl⟩ := List.mem_map.mp hl
  unfold splitArguments at ha
  split at ha
  · cases ha
  · obtain ⟨g, hg, rfl⟩ := List.mem_map.mp ha
    have hsubset := mem_of_mem_argumentGroups 0 inner g hg
    cases g with
    | nil => exact List.mem_map_of_mem List.mem_cons_self
    | cons t ts =>
      exact List.mem_map_of_mem (List.mem_cons_of_mem _ (hsubset List.mem_cons_self))

/-- The places of an agent's reading are those of its keyword and of what follows. -/
theorem places_readCall (keyword : Token) (target : Target) (ts : List Token) (skip : Nat) :
    (Construct.ofAgent (readCall keyword target ts skip).1).places ⊆
      (keyword :: ts).map Token.location := by
  have hkeyword : keyword.location ∈ (keyword :: ts).map Token.location :=
    List.mem_map_of_mem List.mem_cons_self
  have hfound : ∀ n : Nat, ((ts[n]?).getD keyword).location ∈
      (keyword :: ts).map Token.location := by
    intro n
    cases hn : ts[n]? with
    | none => exact hkeyword
    | some t => exact List.mem_map_of_mem (List.mem_cons_of_mem _ (List.mem_of_getElem? hn))
  unfold readCall
  dsimp only
  split
  · exact List.cons_subset.mpr ⟨hfound _, List.nil_subset _⟩
  split
  · exact List.cons_subset.mpr ⟨hfound _, List.nil_subset _⟩
  split
  · exact List.cons_subset.mpr ⟨hkeyword, List.nil_subset _⟩
  · rename_i paren inner hrest
    have htail : paren :: inner ⊆ keyword :: ts := by
      rw [← hrest]
      exact List.Subset.trans (List.drop_subset _ _) (List.subset_cons_self _ _)
    have hparen : paren.location ∈ (keyword :: ts).map Token.location :=
      List.mem_map_of_mem (htail List.mem_cons_self)
    split
    · split
      · exact List.cons_subset.mpr ⟨hparen, List.nil_subset _⟩
      · refine List.cons_subset.mpr ⟨hkeyword, ?_⟩
        refine List.Subset.trans (places_splitArguments paren _) (List.map_subset _ ?_)
        exact List.Subset.trans (List.cons_subset_cons _ (List.take_subset _ _)) htail
    · exact List.cons_subset.mpr ⟨hkeyword, List.nil_subset _⟩

theorem places_readAgent (keyword : Token) (ts : List Token) :
    (Construct.ofAgent (readAgent keyword ts).1).places ⊆ (keyword :: ts).map Token.location := by
  have hkeyword : keyword.location ∈ (keyword :: ts).map Token.location :=
    List.mem_map_of_mem List.mem_cons_self
  unfold readAgent
  split
  · exact List.cons_subset.mpr ⟨hkeyword, List.nil_subset _⟩
  · rename_i t rest
    have hfirst : t.location ∈ (keyword :: t :: rest).map Token.location :=
      List.mem_map_of_mem (List.mem_cons_of_mem _ List.mem_cons_self)
    split
    · exact List.cons_subset.mpr ⟨hkeyword, List.nil_subset _⟩
    split
    · split
      · exact List.cons_subset.mpr ⟨hfirst, List.nil_subset _⟩
      · split
        · exact List.cons_subset.mpr ⟨hfirst, List.nil_subset _⟩
        · rename_i after hafter
          split
          · exact List.cons_subset.mpr ⟨hkeyword, List.nil_subset _⟩
          split
          · exact places_readCall _ _ _ _
          · refine List.cons_subset.mpr ⟨?_, List.nil_subset _⟩
            exact List.mem_map_of_mem (List.mem_cons_of_mem _ (List.mem_of_getElem? hafter))
    split
    · split
      · exact List.cons_subset.mpr ⟨hfirst, List.nil_subset _⟩
      · split
        · exact places_readCall _ _ _ _
        · exact List.cons_subset.mpr ⟨hfirst, List.nil_subset _⟩
    · exact places_readCall _ _ _ _

theorem places_readQuantifier (quantity : Quantity) (t : Token) (ts : List Token) :
    (readQuantifier quantity t.location ts).places ⊆ (t :: ts).map Token.location := by
  refine List.cons_subset.mpr ⟨List.mem_map_of_mem List.mem_cons_self, fun l hl => ?_⟩
  obtain ⟨name, hname, rfl⟩ := List.mem_map.mp hl
  obtain ⟨u, hu, rfl⟩ := Option.map_eq_some_iff.mp (Option.mem_toList.mp hname)
  obtain ⟨hu, -⟩ := Option.filter_eq_some_iff.mp hu
  exact List.mem_map_of_mem (f := Token.location) (List.mem_cons_of_mem _ (List.mem_of_head? hu))

/-- **Whatever the search through a span finds stands in the span.** -/
theorem places_constructs (ts : List Token) :
    (constructs ts).flatMap Construct.places ⊆ ts.map Token.location := by
  fun_induction constructs ts with
  | case1 => exact List.nil_subset _
  | case2 t rest hagent reading =>
    rename_i ih
    rw [List.flatMap_cons]
    refine List.append_subset.mpr ⟨places_readAgent t rest, List.Subset.trans ih ?_⟩
    exact List.map_subset _ (List.Subset.trans (List.drop_subset _ _) (List.subset_cons_self _ _))
  | case3 t rest hagent q hq ih =>
    rw [List.flatMap_cons]
    refine List.append_subset.mpr ⟨places_readQuantifier q t rest, List.Subset.trans ih ?_⟩
    exact List.map_subset _ (List.subset_cons_self _ _)
  | case4 t rest hagent hq ih =>
    exact List.Subset.trans ih (List.map_subset _ (List.subset_cons_self _ _))

namespace Construct

variable {cs : List Construct} {ls : List Location}

/-- Agents, quantifiers and faults are located where the constructs are that they come from. -/
theorem places_agents (h : cs.flatMap places ⊆ ls) : (agents cs).flatMap Agent.places ⊆ ls := by
  refine flatMap_subset fun a ha l hl => h (List.mem_flatMap.mpr ⟨.agent a, ?_, hl⟩)
  obtain ⟨c, hc, hsome⟩ := List.mem_filterMap.mp ha
  cases c <;> cases hsome
  exact hc

theorem places_quantifiers (h : cs.flatMap places ⊆ ls) :
    (quantifiers cs).flatMap Quantifier.places ⊆ ls := by
  refine flatMap_subset fun q hq l hl => h (List.mem_flatMap.mpr ⟨.quantifier q, ?_, hl⟩)
  obtain ⟨c, hc, hsome⟩ := List.mem_filterMap.mp hq
  cases c <;> cases hsome
  exact hc

theorem places_faults (h : cs.flatMap places ⊆ ls) :
    (faults cs).map SyntaxError.location ⊆ ls := by
  intro l hl
  obtain ⟨e, he, rfl⟩ := List.mem_map.mp hl
  refine h (List.mem_flatMap.mpr ⟨.fault e, ?_, List.mem_singleton_self _⟩)
  obtain ⟨c, hc, hsome⟩ := List.mem_filterMap.mp he
  cases c <;> cases hsome
  exact hc

end Construct

/-- The constructs of a block stand where its assertions do. -/
theorem AssertionBlock.places_constructs (b : AssertionBlock) :
    b.constructs.flatMap Construct.places ⊆ b.places := by
  refine flatMap_subset fun c hc => ?_
  obtain ⟨a, ha, hc⟩ := List.mem_flatMap.mp hc
  have hsubset : a.expression.map Token.location ⊆ b.places := fun l hl =>
    List.mem_cons_of_mem _ (List.mem_flatMap.mpr ⟨a, ha, List.mem_cons_of_mem _ hl⟩)
  exact fun l hl => hsubset (ContractLint.places_constructs a.expression
    (List.mem_flatMap.mpr ⟨c, hc, hl⟩))

/-! ## 4. Names, entities and blocks -/

theorem places_readNames {role : NameRole} {c : Cursor} {names : List Name}
    (h : readNames role c = .ok names) : names.map Name.location ⊆ c.spots := by
  induction c using readNames.induct role generalizing names with
  | case1 c hc _ hcomma rest hrest ih =>
    rw [readNames, dif_pos hc, if_pos hcomma, hrest] at h
    cases h
    exact List.cons_subset.mpr ⟨c.peek_mem_spots, List.Subset.trans (ih hrest) (c.spots_drop 2)⟩
  | case2 c hc _ hcomma e he ih =>
    rw [readNames, dif_pos hc, if_pos hcomma, he] at h
    cases h
  | case3 c hc _ hcomma =>
    rw [readNames, dif_pos hc, if_neg hcomma] at h
    cases h
    exact List.cons_subset.mpr ⟨c.peek_mem_spots, List.nil_subset _⟩
  | case4 c hc =>
    rw [readNames, dif_neg hc] at h
    cases h

theorem places_readEntities {role : NameRole} {c : Cursor} {group : Taken (List Entity)}
    (h : readEntities role c = .ok group) : group.value.map Entity.place ⊆ c.spots := by
  obtain ⟨names, hnames, h⟩ := exists_of_bind_eq_ok h
  have hplaces := places_readNames hnames
  dsimp only at h
  split at h
  · obtain ⟨⟨type, k⟩, -, h⟩ := exists_of_bind_eq_ok h
    cases h
    simpa [Function.comp_def, Entity.place] using hplaces
  · cases h

theorem places_readArgumentGroups {c : Cursor} {entities : List Entity} {n : Nat}
    (h : readArgumentGroups c = .ok (entities, n)) : entities.map Entity.place ⊆ c.spots := by
  induction c using readArgumentGroups.induct generalizing entities n with
  | case1 c hclose =>
    rw [readArgumentGroups, if_pos hclose] at h
    cases h
    exact List.nil_subset _
  | case2 c hclose hc _ ih =>
    rw [readArgumentGroups, if_neg hclose, dif_pos hc] at h
    obtain ⟨group, hgroup, h⟩ := exists_of_bind_eq_ok h
    obtain ⟨⟨rest, k⟩, hrest, h⟩ := exists_of_bind_eq_ok h
    cases h
    rw [List.map_append]
    exact List.append_subset.mpr
      ⟨places_readEntities hgroup, List.Subset.trans (ih group hrest) (c.spots_drop _)⟩
  | case3 c hclose hc =>
    rw [readArgumentGroups, if_neg hclose, dif_neg hc] at h
    cases h

theorem places_readArguments {c : Cursor} {entities : List Entity} {n : Nat}
    (h : readArguments c = .ok (entities, n)) : entities.map Entity.place ⊆ c.spots := by
  unfold readArguments at h
  split at h
  · obtain ⟨⟨groups, k⟩, hgroups, h⟩ := exists_of_bind_eq_ok h
    cases h
    exact List.Subset.trans (places_readArgumentGroups hgroups) (c.spots_drop 1)
  · cases h
    exact List.nil_subset _

theorem places_readLocalGroups {c : Cursor} {entities : List Entity} {n : Nat}
    (h : readLocalGroups c = .ok (entities, n)) : entities.map Entity.place ⊆ c.spots := by
  induction c using readLocalGroups.induct generalizing entities n with
  | case1 c hc _ ih =>
    rw [readLocalGroups, dif_pos hc] at h
    obtain ⟨group, hgroup, h⟩ := exists_of_bind_eq_ok h
    obtain ⟨⟨rest, k⟩, hrest, h⟩ := exists_of_bind_eq_ok h
    cases h
    rw [List.map_append]
    exact List.append_subset.mpr
      ⟨places_readEntities hgroup, List.Subset.trans (ih group hrest) (c.spots_drop _)⟩
  | case2 c hc =>
    rw [readLocalGroups, dif_neg hc] at h
    cases h
    exact List.nil_subset _

theorem places_readLocals {c : Cursor} {entities : List Entity} {n : Nat}
    (h : readLocals c = .ok (entities, n)) : entities.map Entity.place ⊆ c.spots := by
  unfold readLocals at h
  split at h
  · obtain ⟨⟨groups, k⟩, hgroups, h⟩ := exists_of_bind_eq_ok h
    cases h
    exact List.Subset.trans (places_readLocalGroups hgroups) (c.spots_drop 1)
  · cases h
    exact List.nil_subset _

theorem places_readBlock (g : BlockGrammar) (c : Cursor) :
    (readBlock g c).value.places ⊆ c.spots := by
  refine List.cons_subset.mpr ⟨c.peek_mem_spots, ?_⟩
  refine List.Subset.trans (places_assertions _) (List.Subset.trans (Cursor.spots_take _ _) ?_)
  exact c.spots_drop _

theorem places_readBlock? (g : BlockGrammar) (keyword : Keyword) (c : Cursor) :
    (readBlock? g keyword c).1.toList.flatMap AssertionBlock.places ⊆ c.spots := by
  unfold readBlock?
  split
  · simpa using places_readBlock g c
  · exact List.nil_subset _

/-- The loop invariants and checks of a body stand in the body. -/
theorem places_innerBlocksFrom : ∀ (n : Nesting) (ts : List Token),
    (innerBlocksFrom n ts).flatMap AssertionBlock.places ⊆ ts.map Token.location
  | _, [] => List.nil_subset _
  | n, t :: ts => by
    have ih := places_innerBlocksFrom (n.feed t ts.head?) ts
    have hblock : ∀ kind stops, (innerBlock kind stops t ts).places ⊆
        (t :: ts).map Token.location := by
      intro kind stops
      refine List.cons_subset_cons _ (List.Subset.trans (places_assertions _) ?_)
      exact List.map_subset _ (List.take_subset _ _)
    rw [innerBlocksFrom, List.flatMap_append]
    refine List.append_subset.mpr ⟨?_, List.Subset.trans ih (List.subset_cons_self _ _)⟩
    unfold innerBlock?
    dsimp only
    split
    · simpa using hblock _ _
    split
    · simpa using hblock _ _
    · exact List.nil_subset _

/-! ## 5. Routines and declarations -/

/-- The instructions of a body are the end of what the body takes. -/
theorem suffix_readBody {c : Cursor} {body : Taken Body} (h : readBody c = .ok body) :
    body.value.tokens <:+ c.take body.taken := by
  cases readBody_cases h with
  | instructions | attributive => exact ⟨c.take 1, (c.take_add 1 _).symm⟩
  | once => exact ⟨c.take _, (c.take_add _ _).symm⟩
  | deferred | external => exact List.nil_suffix

theorem sublist_readBody {c : Cursor} {body : Taken Body} (h : readBody c = .ok body) :
    body.value.tokens.Sublist (c.take body.taken) :=
  (suffix_readBody h).sublist

theorem tokens_readBody {c : Cursor} {body : Taken Body} (h : readBody c = .ok body) :
    body.value.tokens ⊆ c.tokens :=
  List.Subset.trans (sublist_readBody h).subset (c.take_subset _)

/-- The places of a routine. -/
def Routine.places (r : Routine) : List Location :=
  r.locals.map Entity.place ++ r.body.tokens.map Token.location ++
    (r.precondition.toList ++ r.postcondition.toList).flatMap AssertionBlock.places

theorem places_readRoutine {c : Cursor} {routine : Taken Routine}
    (h : readRoutine c = .ok routine) : routine.value.places ⊆ c.spots := by
  obtain ⟨n₁, n₂, n₄, n₅, body, hrequire, hlocals, hbody, hvalue, hensure, -, -, -⟩ :=
    readRoutine_cases h
  have hpre := places_readBlock? .precondition .kwRequire c
  have hpost := places_readBlock? .postcondition .kwEnsure (c.drop (n₁ + n₂ + body.taken))
  rw [hrequire] at hpre
  rw [hensure] at hpost
  have htokens := List.Subset.trans (tokens_readBody hbody) (c.tokens_drop _)
  refine List.append_subset.mpr ⟨List.append_subset.mpr ⟨?_, ?_⟩, ?_⟩
  · exact List.Subset.trans (places_readLocals hlocals) (c.spots_drop _)
  · rw [hvalue]
    exact List.Subset.trans (List.map_subset _ htokens) c.spots_tokens
  · rw [List.flatMap_append]
    exact List.append_subset.mpr ⟨hpre, List.Subset.trans hpost (c.spots_drop _)⟩

/-- The constructs of a routine stand in its body and in its contract. -/
theorem Routine.places_constructs (r : Routine) :
    r.constructs.flatMap Construct.places ⊆ r.places := by
  have hblocks : ∀ bs : List AssertionBlock,
      (bs.flatMap AssertionBlock.constructs).flatMap Construct.places ⊆
        bs.flatMap AssertionBlock.places := by
    intro bs
    rw [List.flatMap_assoc]
    refine flatMap_subset fun b hb l hl => ?_
    exact List.mem_flatMap.mpr ⟨b, hb, b.places_constructs hl⟩
  unfold constructs places
  rw [List.flatMap_append, List.flatMap_append, List.flatMap_append, List.flatMap_assoc]
  refine List.append_subset.mpr ⟨List.append_subset.mpr ⟨?_, ?_⟩, ?_⟩
  · refine flatMap_subset fun s hs => List.Subset.trans (ContractLint.places_constructs s) ?_
    intro l hl
    have hmem := List.map_subset Token.location (fun t ht => mem_of_mem_statements hs ht) hl
    exact List.mem_append_left _ (List.mem_append_right _ hmem)
  · refine List.Subset.trans (hblocks _) fun l hl => ?_
    exact List.mem_append_right _ (List.mem_append_left _ hl)
  · refine List.Subset.trans (hblocks _) fun l hl => ?_
    exact List.mem_append_right _ (List.mem_append_right _ hl)

theorem places_readDeclared {c : Cursor} {names : Taken (List (Name × Bool))}
    (h : readDeclared c = .ok names) : names.value.map (·.1.location) ⊆ c.spots := by
  fun_induction readDeclared c generalizing names with
  | case1 => cases h
  | case2 c frozen name hname hpos k hk declared hcomma rest =>
    rename_i hrest ih
    cases h
    refine List.cons_subset.mpr ⟨c.spots_drop _ name.peek_mem_spots, ?_⟩
    exact List.Subset.trans (ih hrest) (c.spots_drop _)
  | case3 => cases h
  | case4 c frozen name hname hpos k hk =>
    cases h
    exact List.cons_subset.mpr ⟨c.spots_drop _ name.peek_mem_spots, List.nil_subset _⟩
  | case5 => cases h

/-- The places of a signature. -/
def Signature.places (s : Signature) : List Location :=
  s.names.map (·.1.location) ++ s.parameters.map Entity.place

theorem places_readSignature {c : Cursor} {signature : Taken Signature}
    (h : readSignature c = .ok signature) : signature.value.places ⊆ c.spots := by
  obtain ⟨names, hnames, h⟩ := exists_of_bind_eq_ok h
  obtain ⟨⟨parameters, n₁⟩, hparameters, h⟩ := exists_of_bind_eq_ok h
  obtain ⟨⟨returnType, n₂⟩, -, h⟩ := exists_of_bind_eq_ok h
  obtain ⟨n₃, -, h⟩ := exists_of_bind_eq_ok h
  cases h
  exact List.append_subset.mpr ⟨places_readDeclared hnames,
    List.Subset.trans (places_readArguments hparameters) (c.spots_drop _)⟩

/-- The places of a declaration, those of its errors included. -/
def Declaration.places (d : Declaration) : List Location :=
  d.features.flatMap Feature.places ++ d.errors.map SyntaxError.location

namespace Signature

variable (s : Signature) (last : Item)

/-- Without a routine, the places of a declaration are those of its signature. -/
theorem places_constants : (s.constants last).places ⊆ s.places := by
  unfold Declaration.places constants
  rw [List.map_nil, List.append_nil]
  refine flatMap_subset fun f hf => ?_
  obtain ⟨⟨name, frozen⟩, hname, rfl⟩ := List.mem_map.mp hf
  have hmem : name.location ∈ s.places := List.mem_append_left _
    (List.mem_map_of_mem (f := fun n : Name × Bool => n.1.location) hname)
  simpa [Feature.places, Feature.blocks] using hmem

theorem places_attributes : (s.attributes last).places ⊆ s.places := by
  unfold Declaration.places attributes
  rw [List.map_nil, List.append_nil]
  refine flatMap_subset fun f hf => ?_
  obtain ⟨⟨name, frozen⟩, hname, rfl⟩ := List.mem_map.mp hf
  have hmem : name.location ∈ s.places := List.mem_append_left _
    (List.mem_map_of_mem (f := fun n : Name × Bool => n.1.location) hname)
  have hparameters : s.parameters.map Entity.place ⊆ s.places := List.subset_append_right _ _
  simpa [Feature.places, Feature.blocks] using ⟨hmem, hparameters⟩

/-- The features of a routine add the places of the routine. -/
theorem places_routines (r : Routine) : (s.routines last r).places ⊆ s.places ++ r.places := by
  have hconstructs : r.constructs.flatMap Construct.places ⊆ s.places ++ r.places :=
    List.Subset.trans r.places_constructs (List.subset_append_right _ _)
  refine List.append_subset.mpr ⟨flatMap_subset fun f hf => ?_, Construct.places_faults hconstructs⟩
  obtain ⟨⟨name, frozen⟩, hname, rfl⟩ := List.mem_map.mp hf
  have hmem : name.location ∈ s.names.map (·.1.location) :=
    List.mem_map_of_mem (f := fun n : Name × Bool => n.1.location) hname
  have hsignature : s.places ⊆ s.places ++ r.places := List.subset_append_left _ _
  have hroutine : r.places ⊆ s.places ++ r.places := List.subset_append_right _ _
  refine List.append_subset.mpr ⟨List.append_subset.mpr ⟨List.append_subset.mpr
    ⟨List.append_subset.mpr ⟨List.cons_subset.mpr ⟨?_, ?_⟩, ?_⟩, ?_⟩, ?_⟩, ?_⟩
  · exact hsignature (List.mem_append_left _ hmem)
  · exact List.Subset.trans (List.subset_append_right _ _) hsignature
  · exact fun l hl => hroutine (List.mem_append_left _ (List.mem_append_left _ hl))
  · rw [Feature.blocks, List.flatMap_append]
    refine List.append_subset.mpr
      ⟨List.Subset.trans (List.subset_append_right _ _) hroutine, ?_⟩
    refine List.Subset.trans (places_innerBlocksFrom {} r.body.tokens) fun l hl => ?_
    exact hroutine (List.mem_append_left _ (List.mem_append_right _ hl))
  · exact Construct.places_agents hconstructs
  · exact Construct.places_quantifiers hconstructs

end Signature

/-- **The places of a declaration are spots from its first item on.** -/
theorem places_readDeclaration {first : Item} {c : Cursor} {d : Taken Declaration}
    (h : readDeclaration first c = .ok d) : d.value.places ⊆ c.spots := by
  obtain ⟨signature, hsignature, last, hd | hd | ⟨n, routine, hroutine, hd⟩⟩ :=
    readDeclaration_cases h
  · rw [hd]
    exact List.Subset.trans (Signature.places_constants _ _) (places_readSignature hsignature)
  · rw [hd]
    exact List.Subset.trans (Signature.places_attributes _ _) (places_readSignature hsignature)
  · have hplaces := List.Subset.trans (places_readRoutine hroutine) (c.spots_drop _)
    rw [hd]
    exact List.Subset.trans (Signature.places_routines _ _ _)
      (List.append_subset.mpr ⟨places_readSignature hsignature, hplaces⟩)

/-! ## 6. Clauses and classes -/

namespace Recovered

variable {α : Type}

/-- The places of what was read in spite of faults, those of the errors included. -/
def places (placesOf : α → List Location) (r : Recovered α) : List Location :=
  placesOf r.value ++ r.errors.map SyntaxError.location

end Recovered

theorem places_readFeatures (c : Cursor) :
    (readFeatures c).places (List.flatMap Feature.places) ⊆ c.spots := by
  fun_induction readFeatures c with
  | case1 => exact List.nil_subset _
  | case2 => exact List.nil_subset _
  | case3 c i is hc hpos hi d hd =>
    rename_i ih
    have hd := List.append_subset.mp (places_readDeclaration hd)
    have hrest := List.append_subset.mp (List.Subset.trans ih (c.spots_drop _))
    unfold Recovered.places
    rw [List.flatMap_append, List.map_append]
    exact List.append_subset.mpr ⟨List.append_subset.mpr ⟨hd.1, hrest.1⟩,
      List.append_subset.mpr ⟨hd.2, hrest.2⟩⟩
  | case4 c i is hc hpos hi e he n =>
    rename_i ih
    have hrest := List.append_subset.mp (List.Subset.trans ih (c.spots_drop _))
    have hlocation := (readDeclaration_notices i c).mem_spots he
    exact List.append_subset.mpr ⟨hrest.1, List.cons_subset.mpr ⟨hlocation, hrest.2⟩⟩

theorem places_readParents {c : Cursor} {parents : List Name} {n : Nat}
    (h : readParents c = .ok (parents, n)) : parents.map Name.location ⊆ c.spots := by
  fun_induction readParents c generalizing parents n with
  | case1 =>
    cases h
    exact List.nil_subset _
  | case2 c hend hpos hname k =>
    rename_i ih
    obtain ⟨m, -, h⟩ := exists_of_bind_eq_ok h
    obtain ⟨⟨rest, l⟩, hrest, h⟩ := exists_of_bind_eq_ok h
    cases h
    exact List.cons_subset.mpr
      ⟨c.peek_mem_spots, List.Subset.trans (ih m hrest) (c.spots_drop _)⟩
  | case3 c hend hpos hname hsemicolon ih =>
    obtain ⟨⟨rest, l⟩, hrest, h⟩ := exists_of_bind_eq_ok h
    cases h
    exact List.Subset.trans (ih hrest) (c.spots_drop _)
  | case4 =>
    cases h
    exact List.nil_subset _
  | case5 => cases h

theorem places_readCreators {c : Cursor} {names : List Name} {n : Nat}
    (h : readCreators c = .ok (names, n)) : names.map Name.location ⊆ c.spots := by
  fun_induction readCreators c generalizing names n with
  | case1 c hname hpos hcomma hnext rest k hrest ih =>
    cases h
    exact List.cons_subset.mpr ⟨c.peek_mem_spots, List.Subset.trans (ih hrest) (c.spots_drop _)⟩
  | case2 => cases h
  | case3 => cases h
  | case4 c hname hpos hcomma =>
    cases h
    exact List.cons_subset.mpr ⟨c.peek_mem_spots, List.nil_subset _⟩
  | case5 =>
    cases h
    exact List.nil_subset _

theorem places_readNameClause {readList : Cursor → Except SyntaxError (List Name × Nat)}
    (hlist : ∀ {c names n}, readList c = .ok (names, n) → names.map Name.location ⊆ c.spots)
    {c : Cursor} {names : Taken (List Name)} (h : readNameClause readList c = .ok names) :
    names.value.map Name.location ⊆ c.spots := by
  obtain ⟨⟨list, k⟩, hk, h⟩ := exists_of_bind_eq_ok h
  cases h
  exact List.Subset.trans (hlist hk) (c.spots_drop _)

theorem places_readInvariant (c : Cursor) :
    (readInvariant c).value.1.places ++ (readInvariant c).value.2.map SyntaxError.location ⊆
      c.spots := by
  have hblock := places_readBlock .classInvariant c
  have hconstructs := List.Subset.trans
    (AssertionBlock.places_constructs (readBlock .classInvariant c).value) hblock
  simp only [readInvariant, Invariant.places]
  refine List.append_subset.mpr
    ⟨List.append_subset.mpr ⟨List.append_subset.mpr ⟨hblock, ?_⟩, ?_⟩, ?_⟩
  · exact Construct.places_agents hconstructs
  · exact Construct.places_quantifiers hconstructs
  · exact Construct.places_faults hconstructs

/-- The places that a part adds to a class. -/
def Part.places : Part → List Location
  | parents names => names.map Name.location
  | creators names => names.map Name.location
  | clause c => c.places
  | invariant i => i.places
  | skipped => []

theorem places_readPart {c : Cursor} {i : Item} {is : List Item} (hc : c.items = i :: is) :
    (readPart i is c).places Part.places ⊆ c.spots := by
  have hfirst : i.token.location ∈ c.spots :=
    List.mem_map_of_mem (Cursor.token_mem_allTokens (by rw [hc]; exact List.mem_cons_self))
  have hfaulty : ∀ {readList e}, c.next.Notices (readNameClause readList c) →
      readNameClause readList c = .error e → [e.location] ⊆ c.spots := by
    intro readList e hnotices he
    have hlocation := hnotices.mem_spots he
    exact List.cons_subset.mpr ⟨c.spots_drop 1 hlocation, List.nil_subset _⟩
  have hfeatures : ∀ n, (readFeatures (c.drop n)).places (List.flatMap Feature.places) ⊆ c.spots :=
    fun n => List.Subset.trans (places_readFeatures _) (c.spots_drop n)
  generalize hr : readPart i is c = r
  cases readPart_cases hr with
  | parents _ hnames =>
    simpa [Recovered.places, Part.places] using places_readNameClause places_readParents hnames
  | creators _ hnames =>
    simpa [Recovered.places, Part.places] using places_readNameClause places_readCreators hnames
  | faultyParents _ he =>
    exact hfaulty (readNameClause_notices (fun _ => Production.parents_agrees) c) he
  | faultyCreators _ he =>
    exact hfaulty (readNameClause_notices (fun _ => Production.creators_agrees) c) he
  | conversion | note => exact List.nil_subset _
  | features => exact List.cons_subset.mpr ⟨c.peek_mem_spots, hfeatures _⟩
  | invariant => simpa only [Recovered.places, Part.places] using places_readInvariant c
  | loose => exact List.cons_subset.mpr ⟨c.peek_mem_spots, hfeatures 0⟩
  | unexpected => exact List.cons_subset.mpr ⟨hfirst, List.nil_subset _⟩

theorem places_readParts (c : Cursor) :
    (readParts c).places (List.flatMap Part.places) ⊆ c.spots := by
  fun_induction readParts c with
  | case1 => exact List.nil_subset _
  | case2 => exact List.nil_subset _
  | case3 c i is hc hend hpos htaken part =>
    rename_i ih
    have hpart := List.append_subset.mp (places_readPart hc)
    have hrest := List.append_subset.mp (List.Subset.trans ih (c.spots_drop _))
    unfold Recovered.places
    rw [List.flatMap_cons, List.map_append]
    exact List.append_subset.mpr ⟨List.append_subset.mpr ⟨hpart.1, hrest.1⟩,
      List.append_subset.mpr ⟨hpart.2, hrest.2⟩⟩

/-- The formal generics stand inside their brackets. -/
theorem places_genericNames : ∀ (depth : Nat) (expects : Bool) (is : List Item),
    (genericNames depth expects is).map Name.location ⊆ is.map (·.token.location)
  | _, _, [] => List.nil_subset _
  | depth, expects, i :: is => by
    have hrest : ∀ depth expects, (genericNames depth expects is).map Name.location ⊆
        (i :: is).map (·.token.location) := fun depth expects =>
      List.Subset.trans (places_genericNames depth expects is) (List.subset_cons_self _ _)
    rw [genericNames]
    dsimp only
    split
    · exact hrest _ _
    split
    · exact hrest _ _
    split
    · split
      · exact hrest _ _
      split
      · exact List.cons_subset.mpr ⟨List.mem_cons_self, hrest _ _⟩
      · exact hrest _ _
    · exact hrest _ _

theorem places_readGenerics (c : Cursor) : (readGenerics c).1.map Name.location ⊆ c.spots := by
  refine List.Subset.trans (places_genericNames 0 true _) ?_
  have h := c.spots_take c.bracketLength
  rwa [Cursor.take, List.map_map] at h

theorem places_recoverHeader (c : Cursor) :
    (recoverHeader c).places (fun h => [h.name.location]) ⊆ c.spots := by
  unfold recoverHeader
  split
  · rename_i header n hheader
    refine List.cons_subset.mpr ⟨?_, List.nil_subset _⟩
    unfold readHeader at hheader
    dsimp only at hheader
    split at hheader
    · split at hheader
      · cases hheader
        exact c.spots_drop _ (Cursor.spots_drop _ 1 (Cursor.peek_mem_spots _))
      · cases hheader
    · cases hheader
  · rename_i e he
    have hlocation := (readHeader_notices c).mem_spots he
    exact List.cons_subset.mpr ⟨c.spots_drop _ (Cursor.peek_mem_spots _),
      List.cons_subset.mpr ⟨hlocation, List.nil_subset _⟩⟩

theorem places_closingErrors (c : Cursor) :
    (closingErrors c).map SyntaxError.location ⊆ c.spots := by
  unfold closingErrors
  split
  · exact List.cons_subset.mpr ⟨c.peek_mem_spots, List.nil_subset _⟩
  split
  · exact List.nil_subset _
  · exact List.cons_subset.mpr ⟨c.spots_drop 1 c.next.peek_mem_spots, List.nil_subset _⟩

/-- Several invariants that count as one stand where they stood. -/
theorem places_merge? (is : List Invariant) :
    (Invariant.merge? is).toList.flatMap Invariant.places ⊆ is.flatMap Invariant.places := by
  cases is with
  | nil => exact List.nil_subset _
  | cons i is =>
    intro l hl
    obtain ⟨m, hm, hl⟩ := List.mem_flatMap.mp hl
    cases List.mem_singleton.mp hm
    rcases List.mem_append.mp hl with hl | hl
    · rcases List.mem_append.mp hl with hl | hl
      · rcases List.mem_cons.mp hl with rfl | hl
        · exact List.mem_flatMap.mpr ⟨i, List.mem_cons_self,
            List.mem_append_left _ (List.mem_append_left _ List.mem_cons_self)⟩
        · obtain ⟨a, ha, hl⟩ := List.mem_flatMap.mp hl
          obtain ⟨j, hj, ha⟩ := List.mem_flatMap.mp ha
          exact List.mem_flatMap.mpr ⟨j, hj, List.mem_append_left _ (List.mem_append_left _
            (List.mem_cons_of_mem _ (List.mem_flatMap.mpr ⟨a, ha, hl⟩)))⟩
      · obtain ⟨a, ha, hl⟩ := List.mem_flatMap.mp hl
        obtain ⟨j, hj, ha⟩ := List.mem_flatMap.mp ha
        exact List.mem_flatMap.mpr ⟨j, hj, List.mem_append_left _ (List.mem_append_right _
          (List.mem_flatMap.mpr ⟨a, ha, hl⟩))⟩
    · obtain ⟨q, hq, hl⟩ := List.mem_flatMap.mp hl
      obtain ⟨j, hj, hq⟩ := List.mem_flatMap.mp hq
      exact List.mem_flatMap.mpr ⟨j, hj, List.mem_append_right _
        (List.mem_flatMap.mpr ⟨q, hq, hl⟩)⟩

/-- What a part says goes to one field of the class. -/
theorem places_parts (ps : List Part) :
    (Part.parentNames ps ++ Part.creatorNames ps).map Name.location ++
        (Part.clauses ps).flatMap Clause.places ++ (Part.invariants ps).flatMap Invariant.places ⊆
      ps.flatMap Part.places := by
  rw [List.map_append]
  refine List.append_subset.mpr ⟨List.append_subset.mpr ⟨List.append_subset.mpr ⟨?_, ?_⟩, ?_⟩, ?_⟩
  · intro l hl
    obtain ⟨name, hname, rfl⟩ := List.mem_map.mp hl
    obtain ⟨p, hp, hname⟩ := List.mem_flatMap.mp hname
    refine List.mem_flatMap.mpr ⟨p, hp, ?_⟩
    cases p with
    | parents names => exact List.mem_map_of_mem hname
    | _ => cases hname
  · intro l hl
    obtain ⟨name, hname, rfl⟩ := List.mem_map.mp hl
    obtain ⟨p, hp, hname⟩ := List.mem_flatMap.mp hname
    refine List.mem_flatMap.mpr ⟨p, hp, ?_⟩
    cases p with
    | creators names => exact List.mem_map_of_mem hname
    | _ => cases hname
  · refine flatMap_subset fun c hc l hl => ?_
    obtain ⟨p, hp, hc⟩ := List.mem_filterMap.mp hc
    refine List.mem_flatMap.mpr ⟨p, hp, ?_⟩
    cases p <;> cases hc
    exact hl
  · refine flatMap_subset fun i hi l hl => ?_
    obtain ⟨p, hp, hi⟩ := List.mem_filterMap.mp hi
    refine List.mem_flatMap.mpr ⟨p, hp, ?_⟩
    cases p <;> cases hi
    exact hl

/-- **The places of a class, and those of the errors of its text, are spots of the text.** -/
theorem places_readClass (c : Cursor) : (readClass c).places ClassDecl.places ⊆ c.spots := by
  unfold readClass
  dsimp only
  generalize hn₀ : (if c.atKeyword [.kwNote] then classNoteLength c else 0) = n₀
  generalize hheader : recoverHeader (c.drop n₀) = header
  generalize hn₂ : n₀ + header.taken + (readGenerics (c.drop (n₀ + header.taken))).2 +
    obsoleteLength (c.drop (n₀ + header.taken +
      (readGenerics (c.drop (n₀ + header.taken))).2)) = n₂
  have hhead := places_recoverHeader (c.drop n₀)
  rw [hheader] at hhead
  obtain ⟨hname, hfault⟩ := List.append_subset.mp (List.Subset.trans hhead (c.spots_drop n₀))
  have hgenerics := List.Subset.trans (places_readGenerics (c.drop (n₀ + header.taken)))
    (c.spots_drop _)
  obtain ⟨hparts, hfaults⟩ :=
    List.append_subset.mp (List.Subset.trans (places_readParts (c.drop n₂)) (c.spots_drop n₂))
  have hparts := List.append_subset.mp (List.Subset.trans (places_parts _) hparts)
  have hclauses := List.append_subset.mp hparts.1
  have hclosing := List.Subset.trans
    (places_closingErrors (c.drop (n₂ + (readParts (c.drop n₂)).taken))) (c.spots_drop _)
  refine List.append_subset.mpr ⟨?_, ?_⟩
  · refine List.append_subset.mpr ⟨List.append_subset.mpr ⟨List.cons_subset.mpr ⟨?_, ?_⟩, ?_⟩, ?_⟩
    · exact hname List.mem_cons_self
    · rw [List.append_assoc, List.map_append]
      exact List.append_subset.mpr ⟨hgenerics, hclauses.1⟩
    · exact hclauses.2
    · exact List.Subset.trans (places_merge? _) hparts.2
  · rw [List.map_append, List.map_append]
    exact List.append_subset.mpr ⟨List.append_subset.mpr ⟨hfault, hfaults⟩, hclosing⟩

end ContractLint
