/-
# What a report shows of one rule

Thirteen checkers, the suppressions, the removal of repeats and the report order stand between a
rule and what is shown of it.  When nothing is suppressed they leave the findings of one rule alone:
the report shows of it what its checker found, without repeats, in report order
(`filter_diagnostics_analyse`).

What is found may still be a repeat, and then it is shown once for many.  For missing contracts that
cannot happen: names of features stand at different places, in whatever way reading went, so each
feature without the contract it needs is reported once (`missing_contracts_reported_once`).
-/
import ContractLint.Proofs.SourceOrder
import ContractLint.Proofs.Verdict

namespace ContractLint

/-! ## 1. One rule of a report -/

/-- When no finding was covered, all pending ones are kept. -/
theorem Collection.kept_eq_pending {c : Collection} (h : c.close.suppressed = 0) :
    c.kept = c.pending := by
  have hsublist : c.kept.Sublist c.pending := List.filter_sublist
  exact hsublist.eq_of_length_le (Nat.sub_eq_zero_iff_le.mp h)

/-- Without directives nothing is covered. -/
theorem Source.suppressed_eq_zero {s : Source} (policy : Policy)
    (h : suppressions s.lex.tokens = []) : (s.analyse policy).collected.suppressed = 0 := by
  rw [collected_analyse, h]
  simp [Collection.close, Collection.kept, Suppression.filter, Suppression.isSuppressed]

/-- The pending findings of a rule are those of its checker. -/
theorem filter_pending {c : Checker} (hc : c ∈ registry) {r : RuleId} (hr : r ∈ c.rules)
    (s : Source) (selected : List RuleId) :
    (s.pending registry selected).filter (·.rule = r) =
      (c.run selected ⟨s.lex, s.lex.parse.tree⟩).filter (·.rule = r) := by
  have hgrammar : s.lex.parse.diagnostics.filter (·.rule = r) = [] := by
    refine List.filter_eq_nil_iff.mpr fun d hd hrule => syntaxError_notMem_everyRule ?_
    obtain ⟨e, -, rfl⟩ := List.mem_map.mp hd
    have hrule : RuleId.syntaxError = r := of_decide_eq_true hrule
    exact hrule ▸ mem_everyRule hc hr
  obtain ⟨before, after, hregistry⟩ := List.append_of_mem hc
  -- no other checker looks for the rule
  have hothers : ∀ b ∈ before ++ after,
      (b.run selected ⟨s.lex, s.lex.parse.tree⟩).filter (·.rule = r) = [] := by
    have hnodup := nodup_rules_registry
    rw [hregistry, List.perm_middle.flatMap_right (f := Checker.rules) |>.nodup_iff,
      List.flatMap_cons, List.nodup_append'] at hnodup
    intro b hb
    refine filter_run_eq_nil ?_ (fun hrb => hnodup.2.2 hr (List.mem_flatMap.mpr ⟨b, hb, hrb⟩)) _ _
    rw [hregistry]
    exact List.perm_middle.mem_iff.mpr (List.mem_cons_of_mem c hb)
  have hnone : ∀ bs ⊆ before ++ after, (bs.flatMap fun b =>
      (b.run selected ⟨s.lex, s.lex.parse.tree⟩).filter (·.rule = r)) = [] := fun bs hbs =>
    List.flatMap_eq_nil_iff.mpr fun b hb => hothers b (hbs hb)
  rw [Source.pending, List.filter_append, hgrammar, List.nil_append, List.filter_flatMap,
    hregistry, List.flatMap_append, List.flatMap_cons, hnone before (by simp),
    hnone after (by simp), List.nil_append, List.append_nil]

section OneRule

variable {s : Source} {policy : Policy} {name : String} {spec : RuleSpec}
  {check : Subject → List Diagnostic}

/-- A checker of a single rule reports all it finds when the rule is selected. -/
theorem filter_run_ofRules (hc : Checker.ofRules name [spec] check ∈ registry)
    (hselected : spec.id ∈ policy.rules) (x : Subject) :
    ((Checker.ofRules name [spec] check).run policy.rules x).filter (·.rule = spec.id) =
      check x := by
  have hrule : ∀ d ∈ check x, d.rule = spec.id := by
    obtain ⟨found, ⟨⟩, haccounts⟩ := honest_of_mem_registry hc x
    exact fun d hd => List.mem_singleton.mp (haccounts d hd).rule_mem
  have hall : ((check x).filter fun d => policy.rules.contains d.rule) = check x :=
    List.filter_eq_self.mpr fun d hd => by simpa [hrule d hd] using hselected
  have hrun : (Checker.ofRules name [spec] check).run policy.rules x =
      (check x).filter fun d => policy.rules.contains d.rule := rfl
  rw [hrun, hall]
  exact List.filter_eq_self.mpr fun d hd => decide_eq_true (hrule d hd)

/-- **A report shows of a rule what its checker found**, without repeats and in order. -/
theorem filter_diagnostics_analyse (hc : Checker.ofRules name [spec] check ∈ registry)
    (hselected : spec.id ∈ policy.rules) (hcovered : (s.analyse policy).collected.suppressed = 0) :
    (s.analyse policy).collected.diagnostics.filter (·.rule = spec.id) =
      Diagnostic.sort (Diagnostic.dedupe (check ⟨s.lex, s.lex.parse.tree⟩)) := by
  have hrepeat : ∀ {a b : Diagnostic}, a.identity = b.identity →
      decide (a.rule = spec.id) = decide (b.rule = spec.id) := by
    intro a b hab
    have hrule : a.rule = b.rule := congrArg (fun i => i.2.1) hab
    rw [hrule]
  rw [collected_analyse] at hcovered ⊢
  have hkept := Collection.kept_eq_pending hcovered
  rw [Collection.close, hkept, Diagnostic.filter_sort, Diagnostic.filter_dedupe hrepeat,
    filter_pending hc (List.mem_singleton_self _), filter_run_ofRules hc hselected]

/-- How often a report shows the rule, among the findings that satisfy `p`. -/
theorem countP_diagnostics_analyse (hc : Checker.ofRules name [spec] check ∈ registry)
    (hselected : spec.id ∈ policy.rules) (hcovered : (s.analyse policy).collected.suppressed = 0)
    (p : Diagnostic → Bool) :
    (s.analyse policy).collected.diagnostics.countP (fun d => p d && d.rule = spec.id) =
      (Diagnostic.dedupe (check ⟨s.lex, s.lex.parse.tree⟩)).countP p := by
  rw [← List.countP_filter, filter_diagnostics_analyse hc hselected hcovered]
  exact (List.mergeSort_perm _ _).countP_eq p

/-- A finding of the rule that a report shows is one that its checker found. -/
theorem mem_check_of_mem_analyse (hc : Checker.ofRules name [spec] check ∈ registry)
    (hselected : spec.id ∈ policy.rules) (hcovered : (s.analyse policy).collected.suppressed = 0)
    {d : Diagnostic} (hd : d ∈ (s.analyse policy).collected.diagnostics)
    (hrule : d.rule = spec.id) : d ∈ check ⟨s.lex, s.lex.parse.tree⟩ := by
  have hmem : d ∈ (s.analyse policy).collected.diagnostics.filter (·.rule = spec.id) :=
    List.mem_filter.mpr ⟨hd, decide_eq_true hrule⟩
  rw [filter_diagnostics_analyse hc hselected hcovered] at hmem
  exact Diagnostic.mem_of_mem_dedupe (Diagnostic.mem_sort.mp hmem)

end OneRule

/-- Findings without repeats stay as they are. -/
theorem Diagnostic.dedupe_eq_self {ds : List Diagnostic}
    (h : ds.Pairwise fun a b => a.identity ≠ b.identity) : dedupe ds = ds := by
  induction h with
  | nil => rfl
  | cons hd _ ih =>
    rw [dedupe, ih]
    refine congrArg _ (List.filter_eq_self.mpr fun e he => ?_)
    simpa using (hd e he).symm

/-! ## 2. Missing contracts -/

/-- A feature needs a contract that it does not have: its `do` or `once` body splits into more than
one statement, and no precondition or postcondition of it holds an assertion. -/
def Feature.LacksContract (f : Feature) : Prop :=
  (∃ ts, (f.body = .instructions ts ∨ ∃ keys, f.body = .once keys ts) ∧
    1 < (statements ts).length) ∧
  ∀ b, f.precondition = some b ∨ f.postcondition = some b → b.assertions = []

/-- The rule looks for exactly these features. -/
theorem ContractPresence.isMissing_iff {f : Feature} : isMissing f = true ↔ f.LacksContract := by
  have hcontract : f.hasContract = false ↔
      ∀ b, f.precondition = some b ∨ f.postcondition = some b → b.assertions = [] := by
    unfold Feature.hasContract
    cases f.precondition <;> cases f.postcondition <;> simp [or_imp, forall_and]
  have hbody : (f.isRoutine = true ∧ f.body.hasInstructions = true) ∧
      Rulebook.statementThreshold < statementCount f.body.tokens ↔
        ∃ ts, (f.body = .instructions ts ∨ ∃ keys, f.body = .once keys ts) ∧
          1 < (statements ts).length := by
    unfold Feature.isRoutine
    cases f.body <;>
      simp [Body.isRoutine, Body.hasInstructions, Body.tokens, Rulebook.statementThreshold,
        statementCount]
  unfold isMissing Feature.LacksContract
  rw [← hcontract, ← hbody]
  simp only [Bool.and_eq_true, Bool.not_eq_true', decide_eq_true_eq]
  tauto

/-- The names of the features of a text stand at different places. -/
theorem Source.nodup_names (s : Source) :
    (s.features.map fun f => f.name.location).Nodup := by
  refine List.pairwise_map.mpr (s.pairwise_features.imp fun {f g} h heq => ?_)
  rw [heq] at h
  omega

/-- **No finding about a missing contract is a repeat of another.** -/
theorem ContractPresence.dedupe_check (s : Source) :
    Diagnostic.dedupe (check ⟨s.lex, s.lex.parse.tree⟩) = check ⟨s.lex, s.lex.parse.tree⟩ := by
  refine Diagnostic.dedupe_eq_self (List.pairwise_map.mpr ?_)
  have hnames := List.pairwise_map.mp s.nodup_names
  refine (hnames.filter _).imp fun {f g} hne heq => hne ?_
  exact congrArg (fun i => i.2.2.1) heq

/-- **Missing contracts are reported exactly once.**  With the rule selected and nothing suppressed,
the report of every text shows one finding of the rule at the name of each feature that lacks a
contract, and none anywhere else. -/
theorem missing_contracts_reported_once (raw path : String) (policy : Policy)
    (hselected : .contractPresence ∈ policy.rules)
    (hcovered : ((Source.ofString raw path).analyse policy).collected.suppressed = 0) :
    let s := Source.ofString raw path
    let report := (s.analyse policy).collected.diagnostics
    (∀ f ∈ s.features, f.LacksContract →
      report.countP (fun d => d.location = f.name.location && d.rule = .contractPresence) = 1) ∧
    ∀ d ∈ report, d.rule = .contractPresence →
      ∃ f ∈ s.features, f.LacksContract ∧ d.location = f.name.location := by
  intro s report
  have hc : ContractPresence.checker ∈ registry := by simp [registry]
  constructor
  · intro f hf hlacks
    have hcount := countP_diagnostics_analyse hc hselected hcovered fun d =>
      d.location = f.name.location
    refine hcount.trans ?_
    have hmissing : f ∈ s.features.filter ContractPresence.isMissing :=
      List.mem_filter.mpr ⟨hf, ContractPresence.isMissing_iff.mpr hlacks⟩
    have hnodup : ((s.features.filter ContractPresence.isMissing).map
        fun g => g.name.location).Nodup :=
      s.nodup_names.sublist (List.filter_sublist.map _)
    have hone := List.count_eq_one_of_mem hnodup (List.mem_map_of_mem hmissing)
    rw [ContractPresence.dedupe_check, ContractPresence.check, List.countP_map]
    rw [List.count, List.countP_map] at hone
    exact hone
  · intro d hd hrule
    have hd := mem_check_of_mem_analyse hc hselected hcovered hd hrule
    obtain ⟨f, hf, rfl⟩ := List.mem_map.mp hd
    obtain ⟨hf, hmissing⟩ := List.mem_filter.mp hf
    exact ⟨f, hf, ContractPresence.isMissing_iff.mp hmissing, rfl⟩

/-- Two names of one declaration, whose body has two statements: each of them is reported. -/
theorem missing_contracts_reported_names :
    let s := Source.ofString "class A feature f, g do x; y end end" "a.e"
    let report := (s.analyse {}).collected.diagnostics
    RuleId.contractPresence ∈ ({} : Policy).rules ∧ (s.analyse {}).collected.suppressed = 0 ∧
      ∀ name ∈ ["f", "g"], ∃ f ∈ s.features, f.name.text = name ∧ f.LacksContract ∧
        report.countP (fun d => d.location = f.name.location && d.rule = .contractPresence) =
          1 := by
  intro s report
  have hselected : RuleId.contractPresence ∈ ({} : Policy).rules := by decide
  obtain ⟨hnone, hmissing⟩ : suppressions s.lex.tokens = [] ∧
      (s.features.map fun f => (f.name.text, ContractPresence.isMissing f)) =
        ["f", "g"].map fun name => (name, true) := by
    cbv
  have hcovered : (s.analyse {}).collected.suppressed = 0 := Source.suppressed_eq_zero {} hnone
  have hreported := missing_contracts_reported_once _ "a.e" {} hselected hcovered
  refine ⟨hselected, hcovered, fun name hname => ?_⟩
  have hpair := hmissing ▸ List.mem_map_of_mem hname
  obtain ⟨f, hf, heq⟩ := List.mem_map.mp hpair
  obtain ⟨hname, hlacks⟩ := Prod.mk.inj heq
  have hlacks := ContractPresence.isMissing_iff.mp hlacks
  exact ⟨f, hf, hname, hlacks, hreported.1 f hf hlacks⟩

end ContractLint
