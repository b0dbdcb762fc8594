/-
# Who reports what

A report is put together from the errors of the grammar and from what thirteen checkers found, and
nothing in a finding says who made it.  Whatever is said about a report as a whole (that rules can be
left out of it, that no error is lost in it, that the order of the checkers does not show) rests on
two facts about single findings, which this file reads off each checker:

* **A finding names its maker.**  A checker reports under its own rules only (`Checker.Honest`), and
  no rule belongs to two checkers (`nodup_rules_registry`).
* **A finding's severity is no choice.**  It follows from rule, place and message
  (`Subject.weight`), so repeats of a finding weigh the same (`Subject.weight_congr`), although two
  of the rules report with two severities.

`honest_of_mem_registry` has one case for each checker; everything later goes through it.
-/
import ContractLint.Analysis

namespace ContractLint

/-! ## 1. Severities -/

namespace Subject

/-- The severity that a finding has by its rule, place and message.  A malformed escape weighs less
in a comment, and an agent whose arguments are all open, of which the message starts with "every",
weighs less than a stray marker.  All other rules have the severity of the rulebook. -/
def weight (s : Subject) (d : Diagnostic) : Severity :=
  if d.rule = .invalidEscape then EscapeRule.severity s d
  else if d.rule = .agentForm ∧ d.message.toList.head? = some 'e' then Rulebook.allOpenSeverity
  else ((Rulebook.find? d.rule).map RuleSpec.severity).getD .error

/-- **Repeats of a finding weigh the same.** -/
theorem weight_congr (s : Subject) {d e : Diagnostic} (h : d.identity = e.identity) :
    s.weight d = s.weight e := by
  obtain ⟨rule, severity, message, location, fix, path⟩ := d
  obtain ⟨rule', severity', message', location', fix', path'⟩ := e
  obtain ⟨-, rfl, rfl, rfl⟩ :
      path = path' ∧ rule = rule' ∧ location = location' ∧ message = message' := by
    simpa [Diagnostic.identity] using h
  rfl

end Subject

/-- The first letter of a message about agents decides its weight. -/
theorem Subject.weight_agentForm (s : Subject) {d : Diagnostic} (h : d.rule = .agentForm) :
    s.weight d = if d.message.toList.head? = some 'e' then Rulebook.allOpenSeverity
      else Rulebook.agentForm.severity := by
  have hescape : d.rule ≠ .invalidEscape := by
    rw [h]
    decide
  have hfind : Rulebook.find? d.rule = some Rulebook.agentForm := by
    rw [h]
    decide
  rw [weight, if_neg hescape, hfind]
  simp only [h, true_and]
  rfl

/-- The rule reports with one severity, the one that the rulebook has under its identifier. -/
def RuleSpec.Steady (r : RuleSpec) : Prop :=
  r.id ≠ .invalidEscape ∧ r.id ≠ .agentForm ∧
    (Rulebook.find? r.id).map RuleSpec.severity = some r.severity

instance (r : RuleSpec) : Decidable r.Steady :=
  inferInstanceAs (Decidable (_ ∧ _ ∧ _))

/-- `d` is a finding in `s` under one of the rules `rs`, and weighs what it has to. -/
structure Subject.Accounts (s : Subject) (rs : List RuleId) (d : Diagnostic) : Prop where
  rule_mem : d.rule ∈ rs
  path_eq : d.path = s.path
  severity_eq : d.severity = s.weight d

/-- A report of a rule with one severity weighs what it has to. -/
theorem Subject.accounts_report (s : Subject) {r : RuleSpec} {rs : List RuleId}
    (hr : r.Steady) (hrs : r.id ∈ rs) (message : String) (location : Location)
    (fix : Option String) : s.Accounts rs (s.report r message location fix) := by
  obtain ⟨hescape, hagent, hseverity⟩ := hr
  refine ⟨hrs, rfl, ?_⟩
  have hrule : (s.report r message location fix).rule = r.id := rfl
  rw [weight, if_neg (hrule ▸ hescape), if_neg fun h => hagent h.1, hrule, hseverity]
  rfl

/-! ## 2. What each checker reports -/

/-- A checker is honest about a subject: it does not fail, and each of its findings stands under one
of its rules and weighs what it has to. -/
def Checker.Honest (c : Checker) (s : Subject) : Prop :=
  ∃ found, c.check s = .ok found ∧ ∀ d ∈ found, s.Accounts c.rules d

theorem Checker.honest_ofRules {name : String} {rs : List RuleSpec}
    {check : Subject → List Diagnostic} {s : Subject}
    (h : ∀ d ∈ check s, s.Accounts (rs.map RuleSpec.id) d) :
    (Checker.ofRules name rs check).Honest s :=
  ⟨check s, rfl, h⟩

section Checkers

variable (s : Subject)

theorem Naming.honest : Naming.checker.Honest s := by
  refine Checker.honest_ofRules fun d hd => ?_
  obtain ⟨n, -, hn⟩ := List.mem_filterMap.mp hd
  unfold Naming.finding? at hn
  dsimp only at hn
  split at hn
  · cases hn
  · cases hn
    exact s.accounts_report (by decide) (by decide) _ _ _

theorem ContractPresence.honest : ContractPresence.checker.Honest s := by
  refine Checker.honest_ofRules fun d hd => ?_
  obtain ⟨f, -, rfl⟩ := List.mem_map.mp hd
  exact s.accounts_report (by decide) (by decide) _ _ _

theorem AssertionLabeling.honest : AssertionLabeling.checker.Honest s := by
  refine Checker.honest_ofRules fun d hd => ?_
  obtain ⟨b, -, hd⟩ := List.mem_flatMap.mp hd
  obtain ⟨a, -, rfl⟩ := List.mem_map.mp hd
  exact s.accounts_report (by decide) (by decide) _ _ _

theorem Attachment.honest : Attachment.checker.Honest s := by
  refine Checker.honest_ofRules fun d hd => ?_
  obtain ⟨f, -, hd⟩ := List.mem_flatMap.mp hd
  obtain ⟨b, -, hd⟩ := List.mem_flatMap.mp hd
  obtain ⟨a, -, hd⟩ := List.mem_flatMap.mp hd
  obtain ⟨test, -, hd⟩ := List.mem_filterMap.mp hd
  obtain ⟨p, -, rfl⟩ := Option.map_eq_some_iff.mp hd
  exact s.accounts_report (by decide) (by decide) _ _ _

theorem CommandQuery.honest : CommandQuery.checker.Honest s := by
  refine Checker.honest_ofRules fun d hd => ?_
  obtain ⟨c, -, hd⟩ := List.mem_flatMap.mp hd
  obtain ⟨f, -, hd⟩ := List.mem_flatMap.mp hd
  unfold CommandQuery.ofFeature at hd
  split at hd
  · cases hd
  · obtain ⟨name, -, hd⟩ := List.mem_filterMap.mp hd
    obtain ⟨t, -, rfl⟩ := Option.map_eq_some_iff.mp hd
    exact s.accounts_report (by decide) (by decide) _ _ _

theorem OnceClass.honest : OnceClass.checker.Honest s := by
  refine Checker.honest_ofRules fun d hd => ?_
  obtain ⟨c, -, hd⟩ := List.mem_flatMap.mp hd
  obtain ⟨creator, -, hd⟩ := List.mem_filterMap.mp hd
  obtain ⟨message, -, rfl⟩ := Option.map_eq_some_iff.mp hd
  exact s.accounts_report (by decide) (by decide) _ _ _

/-- The findings of the scan belong to the file. -/
theorem path_of_mem_lexed {d : Diagnostic} (hd : d ∈ s.lexed.diagnostics) : d.path = s.path := by
  obtain ⟨f, -, rfl⟩ := List.mem_map.mp hd
  unfold Finding.diagnostic
  split <;> rfl

/-- Malformed escapes are weighed again, by their place alone. -/
theorem EscapeRule.honest : EscapeRule.checker.Honest s := by
  refine Checker.honest_ofRules fun d hd => ?_
  obtain ⟨e, he, rfl⟩ := List.mem_map.mp hd
  obtain ⟨he, hrule⟩ := List.mem_filter.mp he
  have hrule : e.rule = .invalidEscape := eq_of_beq hrule
  have hpath : e.path = s.path := path_of_mem_lexed s he
  refine ⟨List.mem_singleton.mpr hrule, hpath, ?_⟩
  rw [Subject.weight, if_pos hrule]
  rfl

theorem FeatureClause.honest : FeatureClause.checker.Honest s := by
  refine Checker.honest_ofRules fun d hd => ?_
  obtain ⟨c, -, hd⟩ := List.mem_flatMap.mp hd
  obtain ⟨clause, -, hd⟩ := List.mem_flatMap.mp hd
  unfold FeatureClause.ofClause at hd
  split at hd
  · obtain ⟨f, -, rfl⟩ := List.mem_map.mp hd
    exact s.accounts_report (by decide) (by decide) _ _ _
  · cases List.mem_singleton.mp hd
    exact s.accounts_report (by decide) (by decide) _ _ _
  · split at hd
    · cases hd
    · cases List.mem_singleton.mp hd
      exact s.accounts_report (by decide) (by decide) _ _ _

/-- What the scan reports as space indentation has the severity of the rulebook. -/
theorem accounts_of_tabExpected {d : Diagnostic} (hd : d ∈ s.lexed.diagnostics)
    (hrule : d.rule = .tabExpected) {rs : List RuleId} (hrs : RuleId.tabExpected ∈ rs) :
    s.Accounts rs d := by
  refine ⟨hrule ▸ hrs, path_of_mem_lexed s hd, ?_⟩
  obtain ⟨f, -, rfl⟩ := List.mem_map.mp hd
  unfold Finding.diagnostic at hrule ⊢
  split at hrule
  · rfl
  · have hother : RuleId.invalidEscape = RuleId.tabExpected := hrule
    exact absurd hother (by decide)

/-- The line ends of a text are reported under their own rule. -/
theorem accounts_of_mem_trailingFrom {rs : List RuleId} (hrs : RuleId.trailingWhitespace ∈ rs) :
    ∀ (line start : Nat) (texts : List (List Char)),
      ∀ d ∈ Layout.trailingFrom s line start texts, s.Accounts rs d
  | _, _, [] => fun _ hd => nomatch hd
  | line, start, text :: texts => by
    intro d hd
    rcases List.mem_append.mp hd with hd | hd
    · unfold Layout.trailing? at hd
      dsimp only at hd
      split at hd
      · cases hd
      · cases List.mem_singleton.mp hd
        exact s.accounts_report (by decide) hrs _ _ _
    · exact accounts_of_mem_trailingFrom hrs _ _ texts d hd

theorem Layout.honest : Layout.checker.Honest s := by
  refine Checker.honest_ofRules fun d hd => ?_
  rcases List.mem_append.mp hd with hd | hd
  · obtain ⟨hd, hrule⟩ := List.mem_filter.mp hd
    exact accounts_of_tabExpected s hd (eq_of_beq hrule) (by decide)
  · exact accounts_of_mem_trailingFrom s (by decide) _ _ _ d hd

theorem HeaderComment.honest : HeaderComment.checker.Honest s := by
  refine Checker.honest_ofRules fun d hd => ?_
  obtain ⟨f, -, rfl⟩ := List.mem_map.mp hd
  exact s.accounts_report (by decide) (by decide) _ _ _

theorem FileName.honest : FileName.checker.Honest s := by
  refine Checker.honest_ofRules fun d hd => ?_
  unfold FileName.check at hd
  split at hd
  · cases hd
  · obtain ⟨c, -, hd⟩ := List.mem_filterMap.mp hd
    unfold FileName.finding? at hd
    dsimp only at hd
    split at hd
    · cases hd
    · cases hd
      exact s.accounts_report (by decide) (by decide) _ _ _

/-- Both findings about agents stand under one rule; their messages keep them apart. -/
theorem AgentForm.honest : AgentForm.checker.Honest s := by
  refine Checker.honest_ofRules fun d hd => ?_
  obtain ⟨agent, -, hd⟩ := List.mem_flatMap.mp hd
  cases agent with
  | inline location => cases hd
  | call location target feature arguments =>
    rcases List.mem_append.mp hd with hd | hd
    · obtain ⟨a, -, rfl⟩ := List.mem_map.mp hd
      refine ⟨List.mem_singleton.mpr rfl, rfl, ?_⟩
      have hfirst : (AgentForm.stray s feature a).message.toList.head? = some 'o' := by
        simp [AgentForm.stray, Subject.report, toString]
      rw [s.weight_agentForm rfl, hfirst]
      rfl
    · split at hd
      · cases List.mem_singleton.mp hd
        refine ⟨List.mem_singleton.mpr rfl, rfl, ?_⟩
        have hfirst : (AgentForm.allOpen s location feature).message.toList.head? = some 'e' := by
          simp [AgentForm.allOpen, Subject.report, toString]
        rw [s.weight_agentForm rfl, hfirst]
        rfl
      · cases hd

theorem QuantifierForm.honest : QuantifierForm.checker.Honest s := by
  refine Checker.honest_ofRules fun d hd => ?_
  obtain ⟨q, -, rfl⟩ := List.mem_map.mp hd
  exact s.accounts_report (by decide) (by decide) _ _ _

end Checkers

/-! ## 3. The registry and the grammar -/

/-- **Every checker of the registry is honest.** -/
theorem honest_of_mem_registry {c : Checker} (hc : c ∈ registry) (s : Subject) : c.Honest s := by
  simp only [registry, List.mem_cons, List.not_mem_nil, or_false] at hc
  rcases hc with rfl | rfl | rfl | rfl | rfl | rfl | rfl | rfl | rfl | rfl | rfl | rfl | rfl
  · exact Naming.honest s
  · exact ContractPresence.honest s
  · exact AssertionLabeling.honest s
  · exact Attachment.honest s
  · exact CommandQuery.honest s
  · exact OnceClass.honest s
  · exact EscapeRule.honest s
  · exact FeatureClause.honest s
  · exact Layout.honest s
  · exact HeaderComment.honest s
  · exact FileName.honest s
  · exact AgentForm.honest s
  · exact QuantifierForm.honest s

/-- The rules of the checkers, in order, are those of the rulebook. -/
theorem rules_registry : registry.flatMap Checker.rules = Rulebook.everyRule := rfl

/-- **No rule belongs to two checkers.** -/
theorem nodup_rules_registry : (registry.flatMap Checker.rules).Nodup := by
  rw [rules_registry]
  decide

theorem mem_everyRule {c : Checker} (hc : c ∈ registry) {r : RuleId} (hr : r ∈ c.rules) :
    r ∈ Rulebook.everyRule := by
  rw [← rules_registry]
  exact List.mem_flatMap.mpr ⟨c, hc, hr⟩

/-- Syntax errors belong to no checker. -/
theorem syntaxError_notMem_everyRule : RuleId.syntaxError ∉ Rulebook.everyRule := by
  decide

/-- An honest checker reports those of its findings whose rules are selected. -/
theorem Checker.Honest.run_eq {c : Checker} {s : Subject} (h : c.Honest s) :
    ∃ found : List Diagnostic, (∀ d ∈ found, s.Accounts c.rules d) ∧
      ∀ selected, c.run selected s = found.filter fun d => selected.contains d.rule := by
  obtain ⟨found, hfound, haccounts⟩ := h
  refine ⟨found, haccounts, fun selected => ?_⟩
  rw [run, hfound]

theorem Checker.Honest.accounts_of_mem_run {c : Checker} {s : Subject} (h : c.Honest s)
    {selected : List RuleId} {d : Diagnostic} (hd : d ∈ c.run selected s) :
    s.Accounts c.rules d := by
  obtain ⟨found, haccounts, hrun⟩ := h.run_eq
  rw [hrun] at hd
  exact haccounts d (List.mem_filter.mp hd).1

/-- The errors of the grammar stand under a rule of their own and are errors. -/
theorem accounts_of_mem_parsed {s : Subject} {p : Parsed} (hp : p.tree.path = s.path)
    {d : Diagnostic} (hd : d ∈ p.diagnostics) : s.Accounts [.syntaxError] d := by
  obtain ⟨e, -, rfl⟩ := List.mem_map.mp hd
  exact ⟨List.mem_singleton.mpr rfl, hp, rfl⟩

end ContractLint
