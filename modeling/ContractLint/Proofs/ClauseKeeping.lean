/-
# Feature clauses that are kept

A passage whose end is missing swallows the clauses that follow, and the text may still be read
without an error (`clause_lost_in_clients`).  This file proves that nothing else swallows a clause.
The productions say of themselves what they keep (`Parser.Moves.keeps`), and every state of the
reading keeps the clauses that it holds (`Reading.Tidy.keeps`).  So the last state says where the
runs of the parser were, and `feature_clauses_kept` is the result for texts without an error.
-/
import ContractLint.Proofs.Attempt
import ContractLint.Proofs.Point

namespace ContractLint

/-! ## 1. Classes -/

/-- Where the feature clauses of a class stand that have a keyword. -/
def ClassDecl.explicitPlaces (c : ClassDecl) : List Location :=
  c.clauses.flatMap Clause.explicitPlaces

namespace Reading

variable {s : Reading} {c : Cursor}

/-- Behind the parts of a class without an error stands its `end` and nothing else. -/
theorem keeps_closing {runs : List Run} {before : List Item} {d : Cursor}
    (h : closingErrors d = []) (hend : d.atEnd = true ∨ d.atKeyword [.kwEnd] = true) :
    Keeps runs before d.items [] := by
  obtain ⟨items, eof⟩ := d
  unfold closingErrors at h
  rcases items with _ | ⟨i, _ | ⟨j, is⟩⟩
  · cases h
  · rcases hend with hend | hend
    · cases hend
    · refine .of_forall fun j hj => ?_
      rw [List.mem_singleton.mp hj]
      exact Token.isKeyword_of_disjoint hend (by decide)
  · cases h

/-- **The last state of a reading without an error keeps the keywords of its feature clauses**:
nothing but passages and the last item, the `end`, is left. -/
theorem Tidy.keeps_last (hs : s.Tidy c) (hclosed : s.stage = .closed) (herrors : s.errors = []) :
    ContractLint.Keeps s.runs [] c.items (s.draft.clauses.flatMap Clause.explicitPlaces) := by
  obtain ⟨hretreat, hend⟩ := hs.closed hclosed
  have hbalance := hs.balance
  rw [herrors, closing, hclosed] at hbalance
  change 0 = s.resumed.length + (failures s.calls).length + (closingErrors s.rest).length at hbalance
  have hresumed : s.resumed = [] := List.eq_nil_of_length_eq_zero (by omega)
  have hclosing : closingErrors s.rest = [] := List.eq_nil_of_length_eq_zero (by omega)
  have hkeeps := hs.keeps hresumed hretreat
  rw [explicitPlaces, hclosed, List.append_nil] at hkeeps
  have hlast : ContractLint.Keeps s.runs ([] ++ s.text.items.take s.pos) s.rest.items [] :=
    keeps_closing hclosing hend
  have htotal := ContractLint.Keeps.append hkeeps hlast
  rw [List.append_nil] at htotal
  have hitems : s.text.items.take s.pos ++ s.rest.items = s.text.items :=
    List.take_append_drop s.pos s.text.items
  rwa [hitems, hs.text_eq] at htotal

end Reading

/-! ## 2. Texts -/

/-- The number of feature clauses of a tree whose keyword is at `l`. -/
def Tree.clausesAt (t : Tree) (l : Location) : Nat :=
  (t.classes.flatMap ClassDecl.clauses).countP fun c => c.kind == .explicit && c.location == l

theorem clausesAt_eq_count (path : String) (c : ClassDecl) (l : Location) :
    (⟨path, [c]⟩ : Tree).clausesAt l = c.explicitPlaces.count l := by
  unfold Tree.clausesAt ClassDecl.explicitPlaces
  rw [List.flatMap_singleton]
  induction c.clauses with
  | nil => rfl
  | cons clause clauses ih =>
    rw [List.flatMap_cons, List.count_append, ← ih, List.countP_cons, Nat.add_comm]
    congr 1
    unfold Clause.explicitPlaces
    by_cases hexplicit : clause.kind == .explicit <;> simp [hexplicit, List.count_singleton]

/-- The significant tokens of a kind that the grammar reads are those of its items. -/
theorem mem_tokens_ofLexed_iff {x : Lexed} {t : Token} (ht : t.kind.isItem = true) :
    t ∈ (Cursor.ofLexed x).tokens ↔ t ∈ x.significant := by
  have htokens : (Cursor.ofLexed x).tokens = x.tokens.filter (·.kind.isItem) :=
    map_token_itemsAfter none x.tokens
  have htrivia : t.isTrivia = false := by
    unfold Token.isTrivia
    cases hkind : t.kind <;> simp_all [Kind.isItem, Kind.isTrivia]
  rw [htokens, List.mem_filter, Lexed.significant, List.mem_filter, ht, htrivia]
  rfl

theorem Token.isItem_of_isKeyword {t : Token} {ws : List Keyword} (h : t.isKeyword ws = true) :
    t.kind.isItem = true := by
  unfold isKeyword at h
  split at h
  · rename_i w hkind
    rw [hkind]
    rfl
  · cases h

/-- **No feature clause is lost outside passages.**  Take a text that is read without an error, and the
last state of its reading, which tells where the loops were started that pass over items.  Every
feature keyword outside the passages of these runs is the location of exactly one feature clause of
the tree, and every feature clause with a keyword is located at a feature keyword. -/
theorem feature_clauses_kept (raw path : String)
    (h : (Source.ofString raw path).lex.parse.diagnostics = []) :
    let x := (Source.ofString raw path).lex
    ∃ last, (Reading.start (Cursor.ofLexed x)).Reaches last ∧ last.step = none ∧
      (∀ t ∈ x.significant, t.isKeyword [.kwFeature] = true → t ∈ (Cursor.ofLexed x).tokens) ∧
      (∀ before i after, (Cursor.ofLexed x).items = before ++ i :: after → i.opensClause = true →
        inPassage last.runs before i = false → x.parse.tree.clausesAt i.token.location = 1) ∧
      ∀ c ∈ x.parse.tree.classes.flatMap ClassDecl.clauses, c.kind = .explicit →
        ∃ t ∈ x.significant, t.isKeyword [.kwFeature] = true ∧ c.location = t.location := by
  intro x
  obtain ⟨last, hreaches, hclosed, hclass, herrors, -⟩ := Reading.reaches_closed (Cursor.ofLexed x)
  have hlast : last.Tidy (Cursor.ofLexed x) := Reading.tidy_of_reaches hreaches
  have hclean : (readClass (Cursor.ofLexed x)).errors = [] :=
    (List.append_eq_nil_iff.mp (List.map_eq_nil_iff.mp h)).2
  have hclauses : last.draft.clauses = (readClass (Cursor.ofLexed x)).value.clauses := by
    obtain ⟨header, -, hheader⟩ := Option.map_eq_some_iff.mp hclass
    exact congrArg ClassDecl.clauses hheader
  have hkeeps := hlast.keeps_last hclosed (herrors.trans hclean)
  rw [hclauses] at hkeeps
  change Keeps _ _ _ (readClass (Cursor.ofLexed x)).value.explicitPlaces at hkeeps
  have hlocations : (Cursor.ofLexed x).items.map (·.token.location) =
      (Cursor.ofLexed x).tokens.map Token.location := List.map_map.symm
  refine ⟨last, hreaches, Reading.step_eq_none hlast hclosed, fun t ht hfeature => ?_,
    fun before i after hitems hi hout => ?_, fun c hc hexplicit => ?_⟩
  · exact (mem_tokens_ofLexed_iff (Token.isItem_of_isKeyword hfeature)).mpr ht
  · have hmem : i.token.location ∈ (readClass (Cursor.ofLexed x)).value.explicitPlaces :=
      hkeeps.mem hitems hi hout
    have hsublist := hkeeps.sublist.trans (List.filter_sublist.map _)
    rw [hlocations] at hsublist
    have hnodup := (Source.nodup_location_tokens (Source.ofString raw path)).sublist hsublist
    exact (clausesAt_eq_count _ _ _).trans (List.count_eq_one_of_mem hnodup hmem)
  · have hc : c ∈ (readClass (Cursor.ofLexed x)).value.clauses := by
      simpa [Lexed.parse] using hc
    have hplace : c.location ∈ (readClass (Cursor.ofLexed x)).value.explicitPlaces := by
      refine List.mem_flatMap.mpr ⟨c, hc, ?_⟩
      rw [Clause.explicitPlaces, hexplicit]
      exact List.mem_singleton_self _
    obtain ⟨i, hi, hlocation⟩ := List.mem_map.mp (hkeeps.sublist.subset hplace)
    obtain ⟨hi, hfeature⟩ := List.mem_filter.mp hi
    refine ⟨i.token, ?_, hfeature, hlocation.symm⟩
    exact (mem_tokens_ofLexed_iff (Token.isItem_of_isKeyword hfeature)).mp
      (List.mem_map_of_mem hi)

def sampleClients : Lexed :=
  (Source.ofString "class A feature feature \x7bB\x7d end" "a.e").lex

def sampleKeyword : Item :=
  ⟨{ kind := .keyword .kwFeature, text := "feature", location := ⟨1, 17, 16⟩ }, false, []⟩

/-- The second of two clauses, with clients that are closed. -/
theorem feature_clauses_kept_clients :
    sampleClients.parse.diagnostics = [] ∧
      sampleClients.parse.tree.clausesAt ⟨1, 17, 16⟩ = 1 := by
  obtain ⟨hclean, hitems, hplain⟩ :
      sampleClients.parse.diagnostics = [] ∧
        (Cursor.ofLexed sampleClients).items = (Cursor.ofLexed sampleClients).items.take 3 ++
          sampleKeyword :: (Cursor.ofLexed sampleClients).items.drop 4 ∧
        ((Cursor.ofLexed sampleClients).items.take 3).all (!·.startsRun) = true := by
    cbv
  refine ⟨hclean, ?_⟩
  obtain ⟨last, -, -, -, hkept, -⟩ := feature_clauses_kept _ _ hclean
  refine hkept _ _ _ hitems rfl (inPassage_eq_false fun j hj => ?_)
  simpa using List.all_eq_true.mp hplain j hj

/-- The second of two clauses is lost in the clients of the first, which are not closed. -/
theorem clause_lost_in_clients :
    let x := (Source.ofString "class A feature \x7bB feature \x7bC\x7d x: T end" "a.e").lex
    x.parse.diagnostics = [] ∧
      (x.significant.filter (·.isKeyword [.kwFeature])).map
        (fun t => x.parse.tree.clausesAt t.location) = [1, 0] := by
  cbv

end ContractLint
