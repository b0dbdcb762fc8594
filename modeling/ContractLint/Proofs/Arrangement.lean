/-
# The report does not show how it was put together

A report is what is left of all findings when repeats are removed and the rest is sorted.  Both steps
look at the order in which the findings arrived: of repeats the first stays, and findings that tie
keep their order.  This file proves that nothing of that order shows.

* **Selecting.**  Removing repeats and sorting commute with any filter that does not tell repeats
  apart (`Diagnostic.filter_dedupe`, `Diagnostic.filter_sort`).  So a report under some rules is the
  report under all rules with the other rules left out (`diagnostics_analyse_selection`).
* **Scheduling.**  Findings that tie have the same rule (`Diagnostic.rule_eq_of_tie`), and a rule has
  one checker.  So a report depends on the findings only rule by rule (`SameByRule.sort_eq`), and the
  order in which the checkers ran makes no difference (`collected_analyseWith_perm`).
-/
import ContractLint.Proofs.Provenance
import Mathlib.Data.List.Nodup

namespace ContractLint

/-! ## 1. Stable sorting -/

section Stable

variable {α : Type} {le : α → α → Bool}

/-- **Stable sorting commutes with filtering.** -/
theorem filter_mergeSort (trans : ∀ a b c, le a b = true → le b c = true → le a c = true)
    (total : ∀ a b, (le a b || le b a) = true) (p : α → Bool) :
    ∀ l : List α, (l.mergeSort le).filter p = (l.filter p).mergeSort le
  | [] => by simp
  | a :: l => by
    have ih := filter_mergeSort trans total p l
    -- `a` stands behind the elements of `l` that it does not precede, and in front of the others.
    have hplace : ∀ {l₁ l₂ m : List α}, (a :: m).mergeSort le = l₁ ++ a :: l₂ →
        ∀ b ∈ l₂, le a b = true := by
      intro l₁ l₂ m h
      have hsorted := List.pairwise_mergeSort trans total (a :: m)
      rw [h] at hsorted
      exact (List.pairwise_cons.mp (List.pairwise_append.mp hsorted).2.1).1
    obtain ⟨l₁, l₂, hcons, hl, hbefore⟩ := List.mergeSort_cons trans total a l
    rw [hcons, List.filter_append]
    by_cases hp : p a = true
    · rw [List.filter_cons_of_pos hp, List.filter_cons_of_pos hp]
      obtain ⟨m₁, m₂, hcons', hm, hbefore'⟩ := List.mergeSort_cons trans total a (l.filter p)
      have hsame : m₁ ++ m₂ = l₁.filter p ++ l₂.filter p := by
        rw [← hm, ← ih, hl, List.filter_append]
      have hfront : m₁ = l₁.filter p := by
        have hfilter := congrArg (List.filter fun b => !le a b) hsame
        have hm₂ : m₂.filter (fun b => !le a b) = [] :=
          List.filter_eq_nil_iff.mpr fun b hb => by simp [hplace hcons' b hb]
        have hl₁ : (l₁.filter p).filter (fun b => !le a b) = l₁.filter p :=
          List.filter_eq_self.mpr fun b hb => hbefore b (List.mem_filter.mp hb).1
        have hl₂ : (l₂.filter p).filter (fun b => !le a b) = [] :=
          List.filter_eq_nil_iff.mpr fun b hb => by
            simp [hplace hcons b (List.mem_filter.mp hb).1]
        rwa [List.filter_append, List.filter_append, List.filter_eq_self.mpr hbefore', hm₂, hl₁,
          hl₂, List.append_nil, List.append_nil] at hfilter
      rw [hfront] at hsame hcons'
      rw [hcons', List.append_cancel_left hsame]
    · rw [List.filter_cons_of_neg hp, List.filter_cons_of_neg hp, ← List.filter_append, ← hl, ih]

/-- Sorted lists are equal if they are equal class by class, where elements that tie are in the same
class. -/
theorem eq_of_sorted_of_filter_eq {κ : Type} [DecidableEq κ] {class? : α → κ}
    (tie : ∀ a b, le a b = true → le b a = true → class? a = class? b) :
    ∀ {xs ys : List α}, xs.Pairwise (fun a b => le a b = true) →
      ys.Pairwise (fun a b => le a b = true) →
      (∀ k, xs.filter (class? · = k) = ys.filter (class? · = k)) → xs = ys
  | [], [], _, _, _ => rfl
  | [], y :: ys, _, _, h => by simpa using h (class? y)
  | x :: xs, [], _, _, h => by simpa using h (class? x)
  | x :: xs, y :: ys, hxs, hys, h => by
    obtain ⟨hx, hxs⟩ := List.pairwise_cons.mp hxs
    obtain ⟨hy, hys'⟩ := List.pairwise_cons.mp hys
    have hmem : ∀ a, a ∈ x :: xs ↔ a ∈ y :: ys := by
      intro a
      have ha := congrArg (a ∈ ·) (h (class? a))
      simpa [List.mem_filter] using ha
    -- Each head precedes the other, so they are in the same class, and both are the first of it.
    have heads : x = y := by
      rcases List.mem_cons.mp ((hmem x).mp List.mem_cons_self) with rfl | hx'
      · rfl
      rcases List.mem_cons.mp ((hmem y).mpr List.mem_cons_self) with rfl | hy'
      · rfl
      have hclass : class? x = class? y := tie x y (hx y hy') (hy x hx')
      have hfirst := h (class? y)
      rw [List.filter_cons_of_pos (by simpa using hclass),
        List.filter_cons_of_pos (by simp)] at hfirst
      exact (List.cons.inj hfirst).1
    subst heads
    refine congrArg (x :: ·) (eq_of_sorted_of_filter_eq tie hxs hys' fun k => ?_)
    have hk := h k
    by_cases hclass : class? x = k
    · rw [List.filter_cons_of_pos (by simpa using hclass),
        List.filter_cons_of_pos (by simpa using hclass)] at hk
      exact (List.cons.inj hk).2
    · rwa [List.filter_cons_of_neg (by simpa using hclass),
        List.filter_cons_of_neg (by simpa using hclass)] at hk

end Stable

/-! ## 2. Report order and repeats -/

namespace Diagnostic

/-- The comparison of two findings by line, column, rule and message. -/
def order : Diagnostic → Diagnostic → Ordering :=
  compareLex (compareLex (compareLex (compareOn (·.location.line))
    (compareOn (·.location.column))) (compareOn rule)) (compareOn message)

theorem precedes_eq (a b : Diagnostic) : a.precedes b = (order a b).isLE := rfl

instance : Std.TransCmp order := by
  unfold order
  infer_instance

theorem precedes_trans (a b c : Diagnostic) (hab : a.precedes b = true)
    (hbc : b.precedes c = true) : a.precedes c = true := by
  rw [precedes_eq] at hab hbc ⊢
  exact Std.TransCmp.isLE_trans hab hbc

theorem order_swap (a b : Diagnostic) : order b a = (order a b).swap :=
  Std.OrientedCmp.eq_swap

theorem precedes_total (a b : Diagnostic) : (a.precedes b || b.precedes a) = true := by
  rw [precedes_eq, precedes_eq, order_swap a b]
  cases order a b <;> rfl

/-- **Findings that tie have the same rule.** -/
theorem rule_eq_of_tie (a b : Diagnostic) (hab : a.precedes b = true)
    (hba : b.precedes a = true) : a.rule = b.rule := by
  have h : order a b = .eq := by
    rw [precedes_eq, order_swap a b] at hba
    rw [precedes_eq] at hab
    cases ho : order a b <;> simp_all
  have hrule : compare a.rule b.rule = .eq := by
    simp only [order, compareLex, Ordering.then_eq_eq] at h
    exact h.1.2
  exact Std.LawfulEqOrd.eq_of_compare hrule

/-- The report order commutes with filtering. -/
theorem filter_sort (p : Diagnostic → Bool) (ds : List Diagnostic) :
    (sort ds).filter p = sort (ds.filter p) :=
  filter_mergeSort precedes_trans precedes_total p ds

theorem pairwise_sort (ds : List Diagnostic) :
    (sort ds).Pairwise fun a b => a.precedes b = true :=
  List.pairwise_mergeSort precedes_trans precedes_total ds

theorem mem_sort {d : Diagnostic} {ds : List Diagnostic} : d ∈ sort ds ↔ d ∈ ds :=
  List.mem_mergeSort

/-- Removing repeats commutes with a filter that treats repeats alike. -/
theorem filter_dedupe {p : Diagnostic → Bool}
    (hp : ∀ {a b : Diagnostic}, a.identity = b.identity → p a = p b) :
    ∀ ds : List Diagnostic, (dedupe ds).filter p = dedupe (ds.filter p)
  | [] => rfl
  | d :: ds => by
    have ih := filter_dedupe hp ds
    rw [dedupe]
    by_cases hd : p d = true
    · rw [List.filter_cons_of_pos hd, List.filter_cons_of_pos hd, dedupe, ← ih,
        List.filter_filter, List.filter_filter]
      simp only [Bool.and_comm]
    · rw [List.filter_cons_of_neg hd, List.filter_cons_of_neg hd, ← ih, List.filter_filter]
      refine List.filter_congr fun e _ => ?_
      -- What passes the filter is no repeat of `d`, which does not.
      cases he : p e with
      | false => rfl
      | true =>
        have hne : e.identity ≠ d.identity := fun h => hd (hp h ▸ he)
        simpa using hne

end Diagnostic

/-! ## 3. Equality rule by rule -/

/-- The two lists hold the same findings of each rule, in the same order. -/
def SameByRule (xs ys : List Diagnostic) : Prop :=
  ∀ r, xs.filter (·.rule = r) = ys.filter (·.rule = r)

namespace SameByRule

variable {xs ys : List Diagnostic}

theorem filter (h : SameByRule xs ys) (p : Diagnostic → Bool) :
    SameByRule (xs.filter p) (ys.filter p) := by
  intro r
  have hr := congrArg (List.filter p) (h r)
  simpa only [List.filter_filter, Bool.and_comm] using hr

theorem dedupe (h : SameByRule xs ys) :
    SameByRule (Diagnostic.dedupe xs) (Diagnostic.dedupe ys) := by
  intro r
  have hrule : ∀ {a b : Diagnostic}, a.identity = b.identity →
      decide (a.rule = r) = decide (b.rule = r) := by
    intro a b hab
    have hrule : a.rule = b.rule := congrArg (fun i => i.2.1) hab
    rw [hrule]
  rw [Diagnostic.filter_dedupe hrule, Diagnostic.filter_dedupe hrule, h r]

/-- **Report order sees findings rule by rule.** -/
theorem sort_eq (h : SameByRule xs ys) : Diagnostic.sort xs = Diagnostic.sort ys := by
  refine eq_of_sorted_of_filter_eq Diagnostic.rule_eq_of_tie (Diagnostic.pairwise_sort xs)
    (Diagnostic.pairwise_sort ys) fun r => ?_
  rw [Diagnostic.filter_sort, Diagnostic.filter_sort, h r]

theorem length_eq (h : SameByRule xs ys) : xs.length = ys.length := by
  have hsort := congrArg List.length h.sort_eq
  simpa [Diagnostic.sort] using hsort

/-- **A report depends on the pending findings only rule by rule.** -/
theorem close_eq {threshold : Severity} {suppressions : List Suppression}
    (h : SameByRule xs ys) :
    ({ threshold, suppressions, pending := xs } : Collection).close =
      ({ threshold, suppressions, pending := ys } : Collection).close := by
  have hkept : SameByRule (Suppression.filter suppressions xs)
      (Suppression.filter suppressions ys) := h.filter _
  simp only [Collection.close, Collection.kept, hkept.dedupe.sort_eq, h.length_eq, hkept.length_eq]

end SameByRule

/-! ## 4. What the checkers contribute -/

/-- What honest checkers contribute together.  Those that look for no selected rule would contribute
nothing if they ran. -/
theorem diagnostics_runCheckers {cs : List Checker} {s : Subject} (hcs : ∀ c ∈ cs, c.Honest s)
    (selected : List RuleId) :
    CheckerRun.diagnostics (runCheckers cs selected s) = cs.flatMap (·.run selected s) := by
  induction cs with
  | nil => rfl
  | cons c cs ih =>
    obtain ⟨hc, hcs⟩ := List.forall_mem_cons.mp hcs
    have htail := ih hcs
    unfold CheckerRun.diagnostics runCheckers at htail ⊢
    rw [List.flatMap_cons, ← htail]
    by_cases hselected : c.isSelected selected = true
    · rw [List.filter_cons, if_pos hselected, List.map_cons, List.flatMap_cons]
    · rw [List.filter_cons, if_neg hselected]
      have hnone : c.run selected s = [] := by
        obtain ⟨found, haccounts, hrun⟩ := hc.run_eq
        rw [hrun]
        refine List.filter_eq_nil_iff.mpr fun d hd hrule => hselected ?_
        exact List.any_eq_true.mpr ⟨d.rule, (haccounts d hd).rule_mem, hrule⟩
      rw [hnone, List.nil_append]

/-- A list of lists, most of them empty, has the same elements in any order: of two that change
places, one is empty. -/
theorem flatMap_eq_of_perm {α β : Type} {f : α → List β} {l₁ l₂ : List α} (h : l₁.Perm l₂)
    (hempty : l₁.Pairwise fun a b => f a = [] ∨ f b = []) : l₁.flatMap f = l₂.flatMap f := by
  induction h with
  | nil => rfl
  | cons a _ ih =>
    rw [List.flatMap_cons, List.flatMap_cons, ih (List.pairwise_cons.mp hempty).2]
  | swap a b l =>
    have hab : f b = [] ∨ f a = [] := (List.pairwise_cons.mp hempty).1 a List.mem_cons_self
    rcases hab with hab | hab <;> simp [hab]
  | trans h₁ _ ih₁ ih₂ =>
    exact (ih₁ hempty).trans (ih₂ ((h₁.pairwise_iff Or.symm).mp hempty))

/-- A checker finds nothing of a rule that is not its own. -/
theorem filter_run_eq_nil {c : Checker} (hc : c ∈ registry) {r : RuleId} (hr : r ∉ c.rules)
    (s : Subject) (selected : List RuleId) : (c.run selected s).filter (·.rule = r) = [] := by
  refine List.filter_eq_nil_iff.mpr fun d hd hrule => hr ?_
  have haccounts := (honest_of_mem_registry hc s).accounts_of_mem_run hd
  rw [← of_decide_eq_true hrule]
  exact haccounts.rule_mem

/-- The findings of a rule come from one checker. -/
theorem pairwise_registry (s : Subject) (selected : List RuleId) (r : RuleId) :
    registry.Pairwise fun a b => (a.run selected s).filter (·.rule = r) = [] ∨
      (b.run selected s).filter (·.rule = r) = [] := by
  refine (List.nodup_flatMap.mp nodup_rules_registry).2.imp_of_mem fun {a b} ha hb hdisjoint => ?_
  by_cases hr : r ∈ a.rules
  · exact .inr (filter_run_eq_nil hb (hdisjoint hr) s selected)
  · exact .inl (filter_run_eq_nil ha hr s selected)

/-- **In any order, the checkers find the same of each rule.** -/
theorem sameByRule_of_perm {cs : List Checker} (h : cs.Perm registry) (s : Subject)
    (selected : List RuleId) :
    SameByRule (cs.flatMap (·.run selected s)) (registry.flatMap (·.run selected s)) := by
  intro r
  rw [List.filter_flatMap, List.filter_flatMap]
  exact (flatMap_eq_of_perm h.symm (pairwise_registry s selected r)).symm

/-- Under a selection, a checker reports what it reports under every rule, less the rules that are
not selected. -/
theorem run_eq_filter_run {c : Checker} (hc : c ∈ registry) (s : Subject) (selected : List RuleId) :
    c.run selected s = (c.run Rulebook.everyRule s).filter fun d =>
      selected.contains d.rule || d.rule == .syntaxError := by
  obtain ⟨found, haccounts, hrun⟩ := (honest_of_mem_registry hc s).run_eq
  rw [hrun, hrun, List.filter_filter]
  refine List.filter_congr fun d hd => ?_
  have hrule : d.rule ∈ Rulebook.everyRule := mem_everyRule hc (haccounts d hd).rule_mem
  have hfault : (d.rule == .syntaxError) = false :=
    beq_eq_false_iff_ne.mpr fun h => syntaxError_notMem_everyRule (h ▸ hrule)
  rw [hfault, Bool.or_false, List.contains_iff_mem.mpr hrule, Bool.and_true]

/-! ## 5. Reports of a text -/

/-- The findings of a source before any is covered or removed. -/
def Source.pending (s : Source) (cs : List Checker) (selected : List RuleId) : List Diagnostic :=
  s.lex.parse.diagnostics ++ cs.flatMap (·.run selected ⟨s.lex, s.lex.parse.tree⟩)

/-- The report of honest checkers is what closing the pending findings gives. -/
theorem collected_analyseWith (s : Source) {cs : List Checker} (policy : Policy)
    (hcs : ∀ c ∈ cs, c.Honest ⟨s.lex, s.lex.parse.tree⟩) :
    (s.analyseWith cs policy).collected =
      ({ threshold := policy.threshold, suppressions := suppressions s.lex.tokens
         pending := s.pending cs policy.rules } : Collection).close := by
  rw [Source.pending, ← diagnostics_runCheckers hcs]
  rfl

theorem collected_analyse (s : Source) (policy : Policy) :
    (s.analyse policy).collected =
      ({ threshold := policy.threshold, suppressions := suppressions s.lex.tokens
         pending := s.pending registry policy.rules } : Collection).close :=
  collected_analyseWith s policy fun _ hc => honest_of_mem_registry hc _

/-- What is pending under a selection is what is pending under every rule, less the rules that are
not selected. -/
theorem pending_eq_filter_pending (s : Source) (selected : List RuleId) :
    s.pending registry selected = (s.pending registry Rulebook.everyRule).filter fun d =>
      selected.contains d.rule || d.rule == .syntaxError := by
  unfold Source.pending
  rw [List.filter_append]
  refine congrArg₂ (· ++ ·) ?_ ?_
  · refine (List.filter_eq_self.mpr fun d hd => ?_).symm
    obtain ⟨e, -, rfl⟩ := List.mem_map.mp hd
    exact Bool.or_true _
  · rw [List.filter_flatMap]
    exact List.flatMap_congr fun c hc => run_eq_filter_run hc _ selected

/-- **Selecting rules is a filter on the report.**  Whatever rules are selected, the report shows
exactly what the report under every rule shows of these rules and of syntax errors, in the same
order. -/
theorem diagnostics_analyse_selection (raw path : String) (threshold : Severity)
    (selected : List RuleId) :
    let s := Source.ofString raw path
    (s.analyse ⟨selected, threshold⟩).collected.diagnostics =
      (s.analyse ⟨Rulebook.everyRule, threshold⟩).collected.diagnostics.filter fun d =>
        selected.contains d.rule || d.rule == .syntaxError := by
  intro s
  have hrepeat : ∀ {a b : Diagnostic}, a.identity = b.identity →
      (selected.contains a.rule || a.rule == .syntaxError) =
        (selected.contains b.rule || b.rule == .syntaxError) := by
    intro a b hab
    have hrule : a.rule = b.rule := congrArg (fun i => i.2.1) hab
    rw [hrule]
  rw [collected_analyse, collected_analyse]
  simp only [Collection.close, Collection.kept, Suppression.filter]
  rw [pending_eq_filter_pending, List.filter_comm, Diagnostic.filter_sort,
    Diagnostic.filter_dedupe hrepeat]

/-- **The order of the checkers does not show.**  Checkers that run in any order give the report of
the registry: the same findings in the same order, the same verdict, and as many covered findings. -/
theorem collected_analyseWith_perm (raw path : String) (policy : Policy) (cs : List Checker)
    (h : cs.Perm registry) :
    let s := Source.ofString raw path
    (s.analyseWith cs policy).collected = (s.analyse policy).collected := by
  intro s
  have hhonest : ∀ c ∈ cs, c.Honest ⟨s.lex, s.lex.parse.tree⟩ :=
    fun c hc => honest_of_mem_registry (h.mem_iff.mp hc) _
  rw [collected_analyseWith s policy hhonest, collected_analyse]
  refine SameByRule.close_eq fun r => ?_
  simp only [Source.pending, List.filter_append]
  rw [sameByRule_of_perm h _ policy.rules r]

/-- The checkers in reverse order, on a text with findings of three of them in one place. -/
theorem collected_analyseWith_reverse :
    registry.reverse.Perm registry ∧
      ((Source.ofString "class A feature F do x; y end end" "b.e").analyseWith registry.reverse
        { threshold := .warning }).collected =
      ((Source.ofString "class A feature F do x; y end end" "b.e").analyse
        { threshold := .warning }).collected :=
  ⟨registry.reverse_perm, collected_analyseWith_perm _ _ _ _ registry.reverse_perm⟩

end ContractLint
