/-
# No error is hidden

Between a finding and the verdict stand two steps that take findings out: suppressions, and the
removal of repeats, of which only the first stays.  The verdict is drawn from what is left.  This
file proves that nothing but a suppression can keep a finding from the verdict.

* **Repeats.**  The removal of repeats does not look at severities, so it could keep a warning and
  lose an error.  It does not: every finding has a repeat that stays (`exists_mem_dedupe`), and
  repeats weigh the same, because the severity of a pending finding follows from what repeats share
  (`severity_eq_of_identity_eq`).
* **Syntax errors.**  No directive covers them and every threshold is met by them, so a single one
  fails the text (`verdict_eq_fail_of_error`).  A faulty token is one, and so is each resumption.

`verdict_fail_iff_uncovered` is the law of the verdict.
-/
import ContractLint.Proofs.Arrangement
import ContractLint.Proofs.Attempt

namespace ContractLint

/-! ## 1. Repeats -/

/-- **A repeat of every finding stays.** -/
theorem Diagnostic.exists_mem_dedupe {d : Diagnostic} {ds : List Diagnostic} (h : d ∈ ds) :
    ∃ e ∈ dedupe ds, e.identity = d.identity := by
  induction ds with
  | nil => cases h
  | cons a as ih =>
    rw [dedupe]
    by_cases hrepeat : a.identity = d.identity
    · exact ⟨a, List.mem_cons_self, hrepeat⟩
    · rcases List.mem_cons.mp h with rfl | h
      · exact absurd rfl hrepeat
      · obtain ⟨e, he, hidentity⟩ := ih h
        have hne : e.identity ≠ a.identity := fun hea => hrepeat (hea.symm.trans hidentity)
        exact ⟨e, List.mem_cons_of_mem _ (List.mem_filter.mpr ⟨he, decide_eq_true hne⟩), hidentity⟩

/-- What the verdict is drawn from: if repeats among the kept findings weigh the same, the verdict on
the report is the verdict on all of them. -/
theorem Collection.verdict_close_eq_fail_iff {c : Collection}
    (h : ∀ d ∈ c.kept, ∀ e ∈ c.kept, d.identity = e.identity → d.severity = e.severity) :
    c.close.verdict = .fail ↔ ∃ d ∈ c.kept, d.severity.atLeast c.threshold = true := by
  refine Verdict.ofFindings_eq_fail_iff.trans ⟨?_, ?_⟩
  · rintro ⟨d, hd, hweight⟩
    exact ⟨d, Diagnostic.mem_of_mem_dedupe (Diagnostic.mem_sort.mp hd), hweight⟩
  · rintro ⟨d, hd, hweight⟩
    obtain ⟨e, he, hidentity⟩ := Diagnostic.exists_mem_dedupe hd
    have hseverity := h e (Diagnostic.mem_of_mem_dedupe he) d hd hidentity
    exact ⟨e, Diagnostic.mem_sort.mpr he, hseverity ▸ hweight⟩

/-! ## 2. The pending findings of a text -/

section Text

variable (s : Source) (policy : Policy)

/-- A pending finding comes from the grammar or from a checker that is selected. -/
theorem mem_pending_iff {d : Diagnostic} :
    d ∈ s.pending registry policy.rules ↔
      d ∈ s.lex.parse.diagnostics ∨ ∃ c ∈ registry, c.isSelected policy.rules = true ∧
        d ∈ c.run policy.rules ⟨s.lex, s.lex.parse.tree⟩ := by
  unfold Source.pending
  rw [List.mem_append, List.mem_flatMap]
  refine or_congr_right (exists_congr fun c => and_congr_right fun hc => ?_)
  refine ⟨fun hd => ⟨?_, hd⟩, And.right⟩
  -- What a checker reports stands under a rule that is its own and that is selected.
  obtain ⟨found, haccounts, hrun⟩ := (honest_of_mem_registry hc ⟨s.lex, s.lex.parse.tree⟩).run_eq
  rw [hrun] at hd
  obtain ⟨hfound, hselected⟩ := List.mem_filter.mp hd
  exact List.any_eq_true.mpr ⟨d.rule, (haccounts d hfound).rule_mem, hselected⟩

/-- The severity of a pending finding is what it has to be. -/
theorem severity_eq_weight {d : Diagnostic} (h : d ∈ s.pending registry policy.rules) :
    d.severity = (⟨s.lex, s.lex.parse.tree⟩ : Subject).weight d := by
  rcases (mem_pending_iff s policy).mp h with h | ⟨c, hc, -, h⟩
  · exact (accounts_of_mem_parsed (s := ⟨s.lex, s.lex.parse.tree⟩) rfl h).severity_eq
  · exact ((honest_of_mem_registry hc _).accounts_of_mem_run h).severity_eq

/-- **Pending repeats weigh the same.** -/
theorem severity_eq_of_identity_eq {d e : Diagnostic} (hd : d ∈ s.pending registry policy.rules)
    (he : e ∈ s.pending registry policy.rules) (h : d.identity = e.identity) :
    d.severity = e.severity := by
  rw [severity_eq_weight s policy hd, severity_eq_weight s policy he]
  exact Subject.weight_congr _ h

/-- The verdict on a text looks at every pending finding that is not covered. -/
theorem verdict_eq_fail_iff_pending :
    (s.analyse policy).collected.verdict = .fail ↔
      ∃ d ∈ s.pending registry policy.rules,
        Suppression.isSuppressed (suppressions s.lex.tokens) d = false ∧
          d.severity.atLeast policy.threshold = true := by
  rw [collected_analyse, Collection.verdict_close_eq_fail_iff]
  · simp only [Collection.kept, Suppression.filter, List.mem_filter, Bool.not_eq_true', and_assoc]
  · intro d hd e he
    exact severity_eq_of_identity_eq s policy (List.mem_filter.mp hd).1 (List.mem_filter.mp he).1

/-! ## 3. Syntax errors -/

/-- **Every syntax error fails the text**, whatever is selected or covered. -/
theorem verdict_eq_fail_of_error {e : SyntaxError} (h : e ∈ s.lex.parse.errors) :
    (s.analyse policy).collected.verdict = .fail := by
  refine (verdict_eq_fail_iff_pending s policy).mpr
    ⟨_, List.mem_append_left _ (List.mem_map_of_mem h), rfl, ?_⟩
  cases policy.threshold <;> rfl

end Text

/-- A token with a fault is an error of its text. -/
theorem exists_mem_tokenErrors {ts : List Token} {t : Token} (ht : t ∈ ts) (h : t.fault.isSome) :
    ∃ e, e ∈ tokenErrors ts := by
  obtain ⟨fault, hfault⟩ := Option.isSome_iff_exists.mp h
  refine ⟨⟨.token fault, t.location⟩, List.mem_filterMap.mpr ⟨t, ht, ?_⟩⟩
  rw [hfault]
  rfl

/-- Where reading resumes, an error was reported. -/
theorem exists_mem_errors_of_resumed {c : Cursor} (h : 0 < (readClass c).resumed.length) :
    ∃ e, e ∈ (readClass c).errors := by
  obtain ⟨s, -, -, -, -, -, -, hbalance⟩ := Reading.reaches_balance c
  refine List.exists_mem_of_length_pos ?_
  omega

/-! ## 4. The law of the verdict -/

/-- **No error is hidden on the way to the verdict.**  A text fails exactly when a finding of the
grammar or of a selected checker, whatever repeats it has, is not covered by the directives of the
text and weighs at least as much as the threshold.  In particular a faulty token fails it, and so
does every part that could not be read: under both thresholds, under every selection of rules, and
whatever the comments of the text say. -/
theorem verdict_fail_iff_uncovered (raw path : String) (policy : Policy) :
    let s := Source.ofString raw path
    let x := s.lex
    let verdict := (s.analyse policy).collected.verdict
    (verdict = .fail ↔
      ∃ d, (d ∈ x.parse.diagnostics ∨ ∃ c ∈ registry, c.isSelected policy.rules = true ∧
          d ∈ c.run policy.rules ⟨x, x.parse.tree⟩) ∧
        Suppression.isSuppressed (suppressions x.tokens) d = false ∧
        d.severity.atLeast policy.threshold = true) ∧
    ((∃ t ∈ x.tokens, t.fault.isSome = true) → verdict = .fail) ∧
    (0 < x.parse.recoveries → verdict = .fail) := by
  intro s x verdict
  refine ⟨?_, ?_, ?_⟩
  · refine (verdict_eq_fail_iff_pending s policy).trans (exists_congr fun d => ?_)
    rw [mem_pending_iff]
  · rintro ⟨t, ht, hfault⟩
    obtain ⟨e, he⟩ := exists_mem_tokenErrors ht hfault
    exact verdict_eq_fail_of_error s policy (List.mem_append_left _ he)
  · intro hrecoveries
    obtain ⟨e, he⟩ := exists_mem_errors_of_resumed hrecoveries
    exact verdict_eq_fail_of_error s policy (List.mem_append_right _ he)

end ContractLint
