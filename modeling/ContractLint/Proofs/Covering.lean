/-
# What suppressions cover

The scan for directives keeps ONE number while it goes over the tokens of a text: the line on which
the latest code ended.  A comment asks that number whether code stands before it on its line.  The
rule it is meant to decide speaks of all the tokens before the comment, of which there may be any
number, some of them strings that go over many lines.

* `Directive.Opens`, `Directive.Holds`: the form of a directive, and which one of a comment counts,
  said without the search (`find?_eq_some_iff`);
* `mem_suppressionsAfter`: what one comment contributes, whatever the others do;
* `Tiles.pairwise_lastLine`: tokens end in the order in which they stand, by line;
* `codeLineAfter_eq_iff`: so the number answers the question about all earlier tokens;
* `isSuppressed_iff_directive`: a finding is covered exactly when a comment says so.
-/
import ContractLint.Suppression
import ContractLint.Proofs.LineEnd
import ContractLint.Proofs.Point

namespace ContractLint

/-! ## 1. The form of a directive -/

/-- The word of a directive with this reach. -/
def Reach.word : Reach → String
  | .line => "ignore"
  | .file => "ignore-file"

namespace Directive

/-- `Opens cs reach list`: a directive starts with `cs` and takes all of it.  After the mark come
blanks that may be missing, the word of its reach as a whole word, blanks again, and the list. -/
def Opens (cs : List Char) (reach : Reach) (list : List Char) : Prop :=
  ∃ gap blanks : List Char,
    cs = "eiflint:".toList ++ (gap ++ (reach.word.toList ++ (blanks ++ list))) ∧
    (∀ c ∈ gap, Text.isBlank c = true) ∧
    (∀ c ∈ blanks, Text.isBlank c = true) ∧
    (∀ c ∈ list.head?, Text.isBlank c = false) ∧
    ∀ c ∈ (blanks ++ list).head?, Text.isWordChar c = false

/-- `Holds cs reach list`: the directive of a comment's text is the one that starts first, and the
longer word counts where both fit. -/
def Holds (cs : List Char) (reach : Reach) (list : List Char) : Prop :=
  ∃ before rest, cs = before ++ rest ∧ Opens rest reach list ∧
    (reach = .line → ∀ list', ¬ Opens rest .file list') ∧
    ∀ before' rest', cs = before' ++ rest' → before'.length < before.length →
      ∀ reach' list', ¬ Opens rest' reach' list'

/-- `Lists list id`: an entry of the list, between commas, is the identifier, blanks at its ends
and letter case apart. -/
def Lists (list : List Char) (id : RuleId) : Prop :=
  ∃ entry ∈ Text.splitAt ',' list,
    Text.trimChars entry ≠ [] ∧ Text.lower (String.ofList (Text.trimChars entry)) = id

/-! ## 2. The search finds it -/

theorem dropWord?_eq_some_iff {word : String} {cs rest : List Char} :
    dropWord? word cs = some rest ↔ cs = word.toList ++ rest := by
  unfold dropWord?
  constructor
  · intro h
    by_cases hword : word.toList.isPrefixOf cs = true
    · obtain ⟨rest', rfl⟩ := List.isPrefixOf_iff_prefix.mp hword
      rw [if_pos hword, ← String.length_toList, List.drop_left, Option.some.injEq] at h
      rw [h]
    · rw [if_neg hword] at h
      exact nomatch h
  · rintro rfl
    have hword : word.toList.isPrefixOf (word.toList ++ rest) = true :=
      List.isPrefixOf_iff_prefix.mpr (List.prefix_append _ _)
    rw [if_pos hword, ← String.length_toList, List.drop_left]

theorem dropWholeWord?_eq_some_iff {word : String} {cs rest : List Char} :
    dropWholeWord? word cs = some rest ↔
      cs = word.toList ++ rest ∧ ∀ c ∈ rest.head?, Text.isWordChar c = false := by
  unfold dropWholeWord?
  rw [Option.filter_eq_some_iff, dropWord?_eq_some_iff]
  cases rest <;> simp

/-- Blanks are skipped up to what starts with none. -/
theorem dropWhile_blanks {gap rest : List Char} (hgap : ∀ c ∈ gap, Text.isBlank c = true)
    (hrest : ∀ c ∈ rest.head?, Text.isBlank c = false) :
    (gap ++ rest).dropWhile Text.isBlank = rest := by
  rw [List.dropWhile_append_of_pos hgap]
  cases rest with
  | nil => rfl
  | cons c rest => simp [hrest c rfl]

theorem isBlank_head?_word (reach : Reach) (tail : List Char) :
    ∀ c ∈ (reach.word.toList ++ tail).head?, Text.isBlank c = false := by
  have hi : Text.isBlank 'i' = false := by decide
  cases reach <;> simp [Reach.word, hi]

/-- A directive starts with `cs` exactly when the mark and the word can be dropped from it. -/
theorem opens_iff {cs : List Char} {reach : Reach} {list : List Char} :
    Opens cs reach list ↔
      ∃ rest tail, dropWord? "eiflint:" cs = some rest ∧
        dropWholeWord? reach.word (rest.dropWhile Text.isBlank) = some tail ∧
        list = tail.dropWhile Text.isBlank := by
  constructor
  · rintro ⟨gap, blanks, hcs, hgap, hblanks, hlist, hword⟩
    refine ⟨_, blanks ++ list, dropWord?_eq_some_iff.mpr hcs, ?_, ?_⟩
    · rw [dropWhile_blanks hgap (isBlank_head?_word reach _)]
      exact dropWholeWord?_eq_some_iff.mpr ⟨rfl, hword⟩
    · rw [dropWhile_blanks hblanks hlist]
  · rintro ⟨rest, tail, hmark, hdrop, rfl⟩
    obtain ⟨hrest, hword⟩ := dropWholeWord?_eq_some_iff.mp hdrop
    refine ⟨rest.takeWhile Text.isBlank, tail.takeWhile Text.isBlank, ?_, ?_, ?_, ?_, ?_⟩
    · rw [List.takeWhile_append_dropWhile, ← hrest, List.takeWhile_append_dropWhile]
      exact dropWord?_eq_some_iff.mp hmark
    · exact fun c hc => List.mem_takeWhile_imp hc
    · exact fun c hc => List.mem_takeWhile_imp hc
    · intro c hc
      have h := List.head?_dropWhile_not Text.isBlank tail
      rw [Option.mem_def.mp hc] at h
      simpa using h
    · rwa [List.takeWhile_append_dropWhile]

/-- Blanks before a list do not change its entries. -/
theorem idsOf_cons_blank {c : Char} (hc : Text.isBlank c = true) (cs : List Char) :
    idsOf (c :: cs) = idsOf cs := by
  have hcomma : ¬ c = ',' := by
    rintro rfl
    exact absurd hc (by decide)
  obtain ⟨entry, entries, hsplit⟩ := List.exists_cons_of_ne_nil (Text.splitAt_ne_nil ',' cs)
  have htrim : Text.trimChars (c :: entry) = Text.trimChars entry := by
    unfold Text.trimChars
    rw [List.dropWhile_cons_of_pos hc]
  simp [idsOf, Text.splitAt, hsplit, hcomma, htrim]

theorem idsOf_dropWhile (cs : List Char) : idsOf (cs.dropWhile Text.isBlank) = idsOf cs := by
  induction cs with
  | nil => rfl
  | cons c cs ih =>
    by_cases hc : Text.isBlank c = true
    · rw [List.dropWhile_cons_of_pos hc, ih, idsOf_cons_blank hc]
    · rw [List.dropWhile_cons_of_neg hc]

theorem contains_idsOf_iff {list : List Char} {id : RuleId} :
    (idsOf list).contains id = true ↔ Lists list id := by
  simp only [idsOf, Lists, List.contains_iff_mem, List.mem_map, List.mem_filter,
    decide_eq_true_eq]
  constructor
  · rintro ⟨_, ⟨⟨entry, hentry, rfl⟩, hne⟩, hid⟩
    exact ⟨entry, hentry, hne, hid⟩
  · rintro ⟨entry, hentry, hne, hid⟩
    exact ⟨_, ⟨⟨entry, hentry, rfl⟩, hne⟩, hid⟩

/-- What starts at `cs` is a directive, and of the two words the longer one is tried first. -/
theorem atStart?_eq_some_iff {cs : List Char} {d : Directive} :
    atStart? cs = some d ↔ ∃ reach list, Opens cs reach list ∧
      (reach = .line → ∀ list', ¬ Opens cs .file list') ∧ d = ⟨reach, idsOf list⟩ := by
  simp only [opens_iff]
  unfold atStart?
  cases hmark : dropWord? "eiflint:" cs with
  | none => simp
  | some rest =>
    cases hfile : dropWholeWord? "ignore-file" (rest.dropWhile Text.isBlank) with
    | some tail =>
      constructor
      · intro h
        refine ⟨.file, _, ⟨rest, tail, rfl, hfile, rfl⟩, nofun, ?_⟩
        rw [idsOf_dropWhile]
        simpa [hfile, eq_comm] using h
      · rintro ⟨reach, _, ⟨_, tail', ⟨⟩, htail, rfl⟩, hlonger, rfl⟩
        cases reach with
        | line => exact absurd ⟨rest, tail, rfl, hfile, rfl⟩ (hlonger rfl _)
        | file =>
          obtain rfl : tail = tail' := Option.some.inj (hfile.symm.trans htail)
          simp [hfile, idsOf_dropWhile]
    | none =>
      constructor
      · intro h
        simp only [hfile, Option.bind_some, Option.map_eq_some_iff] at h
        obtain ⟨tail, htail, rfl⟩ := h
        refine ⟨.line, _, ⟨rest, tail, rfl, htail, rfl⟩, ?_, by rw [idsOf_dropWhile]⟩
        rintro - list' ⟨_, tail', ⟨⟩, htail', -⟩
        exact nomatch hfile.symm.trans htail'
      · rintro ⟨reach, _, ⟨_, tail, ⟨⟩, htail, rfl⟩, -, rfl⟩
        cases reach with
        | file => exact nomatch hfile.symm.trans htail
        | line =>
          have htail : dropWholeWord? "ignore" (rest.dropWhile Text.isBlank) = some tail := htail
          simp [hfile, htail, idsOf_dropWhile]

theorem atStart?_eq_none_iff {cs : List Char} :
    atStart? cs = none ↔ ∀ reach list, ¬ Opens cs reach list := by
  constructor
  · intro h reach list hopens
    -- if no directive with the longer word starts here, the one at hand would have been found
    by_cases hfile : ∃ list', Opens cs .file list'
    · obtain ⟨list', hfile⟩ := hfile
      have hsome := atStart?_eq_some_iff.mpr ⟨.file, list', hfile, nofun, rfl⟩
      exact nomatch h.symm.trans hsome
    · have hsome := atStart?_eq_some_iff.mpr
        ⟨reach, list, hopens, fun _ list' h' => hfile ⟨list', h'⟩, rfl⟩
      exact nomatch h.symm.trans hsome
  · intro h
    cases hd : atStart? cs with
    | none => rfl
    | some d =>
      obtain ⟨reach, list, hopens, -⟩ := atStart?_eq_some_iff.mp hd
      exact absurd hopens (h reach list)

/-- One step of the search: a directive starts here, or none does and a later one counts. -/
theorem holds_cons_iff {c : Char} {cs : List Char} {reach : Reach} {list : List Char} :
    Holds (c :: cs) reach list ↔
      (Opens (c :: cs) reach list ∧ (reach = .line → ∀ list', ¬ Opens (c :: cs) .file list')) ∨
      (∀ reach' list', ¬ Opens (c :: cs) reach' list') ∧ Holds cs reach list := by
  constructor
  · rintro ⟨before, rest, hcs, hopens, hlonger, hfirst⟩
    rcases List.cons_eq_append_iff.mp hcs with ⟨rfl, rfl⟩ | ⟨before, rfl, rfl⟩
    · exact .inl ⟨hopens, hlonger⟩
    · refine .inr ⟨hfirst [] _ rfl (by simp), before, rest, rfl, hopens, hlonger, ?_⟩
      intro before' rest' hcs' hlt
      exact hfirst (c :: before') rest' (by rw [hcs', List.cons_append]) (by simpa using hlt)
  · rintro (⟨hopens, hlonger⟩ | ⟨hnone, before, rest, rfl, hopens, hlonger, hfirst⟩)
    · exact ⟨[], c :: cs, rfl, hopens, hlonger, fun _ _ _ h => absurd h (Nat.not_lt_zero _)⟩
    · refine ⟨c :: before, rest, rfl, hopens, hlonger, fun before' rest' hcs' hlt => ?_⟩
      rcases List.cons_eq_append_iff.mp hcs' with ⟨rfl, rfl⟩ | ⟨before', rfl, hrest⟩
      · exact hnone
      · exact hfirst before' rest' hrest (by simpa using hlt)

/-- **The search finds the directive that a text holds.** -/
theorem find?_eq_some_iff {cs : List Char} {d : Directive} :
    find? cs = some d ↔ ∃ reach list, Holds cs reach list ∧ d = ⟨reach, idsOf list⟩ := by
  induction cs with
  | nil =>
    refine iff_of_false nofun ?_
    rintro ⟨reach, list, ⟨before, rest, hnil, ⟨gap, blanks, hrest, -⟩, -⟩, -⟩
    obtain ⟨-, rfl⟩ := List.append_eq_nil_iff.mp hnil.symm
    exact absurd hrest (by simp)
  | cons c cs ih =>
    simp only [holds_cons_iff]
    unfold find?
    cases hstart : atStart? (c :: cs) with
    | some e =>
      have hopens := atStart?_eq_some_iff.mp hstart
      constructor
      · rintro ⟨⟩
        obtain ⟨reach, list, hopens, hlonger, rfl⟩ := hopens
        exact ⟨reach, list, .inl ⟨hopens, hlonger⟩, rfl⟩
      · rintro ⟨reach, list, ⟨hopens', hlonger⟩ | ⟨hnone, -⟩, rfl⟩
        · exact hstart.symm.trans
            (atStart?_eq_some_iff.mpr ⟨reach, list, hopens', hlonger, rfl⟩)
        · obtain ⟨reach', list', hopens, -⟩ := hopens
          exact absurd hopens (hnone reach' list')
    | none =>
      have hnone := atStart?_eq_none_iff.mp hstart
      rw [ih]
      constructor
      · rintro ⟨reach, list, hholds, rfl⟩
        exact ⟨reach, list, .inr ⟨hnone, hholds⟩, rfl⟩
      · rintro ⟨reach, list, ⟨hopens, -⟩ | ⟨-, hholds⟩, rfl⟩
        · exact absurd hopens (hnone reach list)
        · exact ⟨reach, list, hholds, rfl⟩

end Directive

/-! ## 3. The line on which the code before a comment ended -/

/-- The line on which the latest code of `ts` ended, or `codeLine` when they hold none. -/
def codeLineAfter (codeLine : Int) (ts : List Token) : Int :=
  ts.foldl (fun line t => if t.isCode then t.lastLine else line) codeLine

/-- **Every suppression is that of one comment**, which asks where the code before it ended. -/
theorem mem_suppressionsAfter {s : Suppression} {codeLine : Int} {ts : List Token} :
    s ∈ suppressionsAfter codeLine ts ↔ ∃ before c after, ts = before ++ c :: after ∧
      c.suppression? (codeLineAfter codeLine before) = some s := by
  induction ts generalizing codeLine with
  | nil => simp [suppressionsAfter]
  | cons t ts ih =>
    rw [suppressionsAfter, List.mem_append, Option.mem_toList, ih]
    constructor
    · rintro (h | ⟨before, c, after, rfl, h⟩)
      · exact ⟨[], t, ts, rfl, h⟩
      · exact ⟨t :: before, c, after, rfl, h⟩
    · rintro ⟨before, c, after, hts, h⟩
      rcases List.cons_eq_append_iff.mp hts with ⟨rfl, hc⟩ | ⟨before, rfl, rfl⟩
      · obtain ⟨rfl, rfl⟩ := List.cons.inj hc
        exact .inl h
      · exact .inr ⟨before, c, after, rfl, h⟩

/-- When tokens end in order and none of them behind the line `m`, the running line reaches `m`
exactly when one of them ends there.  The induction goes on the tokens, from any line that is not
behind their ends: what was reached is never lost. -/
theorem codeLineAfter_eq_iff {m : Int} {ts : List Token} :
    ∀ {codeLine : Int}, codeLine ≤ m → (∀ t ∈ ts, codeLine ≤ t.lastLine ∧ t.lastLine ≤ m) →
      ts.Pairwise (fun t u => t.lastLine ≤ u.lastLine) →
      (codeLineAfter codeLine ts = m ↔
        codeLine = m ∨ ∃ t ∈ ts, t.isCode = true ∧ t.lastLine = m) := by
  induction ts with
  | nil => simp [codeLineAfter]
  | cons t ts ih =>
    intro codeLine hle hbounds hpairwise
    obtain ⟨hfirst, hrest⟩ := List.pairwise_cons.mp hpairwise
    obtain ⟨hlow, hhigh⟩ := hbounds t List.mem_cons_self
    rw [codeLineAfter, List.foldl_cons, ← codeLineAfter, List.exists_mem_cons_iff]
    by_cases hcode : t.isCode = true
    · rw [if_pos hcode, ih hhigh (fun u hu =>
        ⟨hfirst u hu, (hbounds u (List.mem_cons_of_mem t hu)).2⟩) hrest]
      have hkept : codeLine = m → t.lastLine = m := fun h => by omega
      tauto
    · rw [if_neg hcode, ih hle (fun u hu => hbounds u (List.mem_cons_of_mem t hu)) hrest]
      tauto

theorem Token.line_le_lastLine (t : Token) : t.line ≤ t.lastLine := by
  unfold lastLine
  omega

/-- The location behind a token is on its last line. -/
theorem Token.line_after_text (t : Token) :
    (t.location.after t.text.toList).line = t.lastLine := by
  rw [Location.line_after]
  rfl

/-- A token of a tiling starts on or behind its first line and ends on or before its last one. -/
theorem Tiles.line_bounds {loc : Location} {ts : List Token} {cs : List Char}
    (h : Tiles loc ts cs) :
    ∀ t ∈ ts, loc.line ≤ t.line ∧ t.lastLine ≤ (loc.after cs).line := by
  induction h with
  | nil => exact fun t ht => nomatch ht
  | @gap loc ts c cs _ _ ih =>
    intro t ht
    have hnext := loc.line_le_line_after [c]
    exact ⟨Int.le_trans hnext (ih t ht).1, (ih t ht).2⟩
  | @token t ts cs _ _ _ ih =>
    rw [Location.after_append]
    intro u hu
    rcases List.mem_cons.mp hu with rfl | hu
    · refine ⟨Int.le_refl _, ?_⟩
      rw [← Token.line_after_text]
      exact Location.line_le_line_after _ cs
    · refine ⟨?_, (ih u hu).2⟩
      exact Int.le_trans (Location.line_le_line_after _ _) (ih u hu).1

/-- **A token ends on or before the line on which the next one starts.** -/
theorem Tiles.pairwise_lastLine {loc : Location} {ts : List Token} {cs : List Char}
    (h : Tiles loc ts cs) : ts.Pairwise fun t u => t.lastLine ≤ u.line := by
  induction h with
  | nil => exact .nil
  | gap _ _ ih => exact ih
  | @token t ts cs _ _ rest ih =>
    refine .cons (fun u hu => ?_) ih
    rw [← Token.line_after_text]
    exact (rest.line_bounds u hu).1

/-! ## 4. Covered findings -/

/-- One of the tokens is not trivia and ends on the line `m`. -/
def CodeEndsOn (m : Int) (ts : List Token) : Prop :=
  ∃ t ∈ ts, t.isTrivia = false ∧ t.lastLine = m

/-- The tokens in front of a token stand before the end of the text, and they end on or before the
line of that token. -/
theorem Source.front_of_token {s : Source} {before after : List Token} {c : Token}
    (h : s.lex.tokens = before ++ c :: after) :
    before <+: s.innerTokens ∧ ∀ t ∈ before, t.lastLine ≤ c.line := by
  have hinner : before <+: s.innerTokens := by
    rcases List.prefix_concat_iff.mp (h ▸ List.prefix_append before (c :: after)) with h' | h'
    · have hlength := congrArg List.length h
      rw [List.length_append, h', ← Source.innerTokens, ← s.tokens_lex, List.length_cons] at hlength
      omega
    · exact h'
  refine ⟨hinner, fun t ht => ?_⟩
  have hpairwise : s.lex.tokens.Pairwise fun t u => t.lastLine ≤ u.line := by
    refine List.pairwise_append.mpr
      ⟨s.tiles.pairwise_lastLine, List.pairwise_singleton _ _, fun t ht u hu => ?_⟩
    rw [List.mem_singleton.mp hu]
    exact (s.tiles.line_bounds t ht).2
  rw [h] at hpairwise
  exact (List.pairwise_append.mp hpairwise).2.2 t ht c List.mem_cons_self

/-- **The running line answers the question about all earlier tokens.** -/
theorem Source.codeLineAfter_eq_line_iff {s : Source} {before after : List Token} {c : Token}
    (h : s.lex.tokens = before ++ c :: after) :
    codeLineAfter 0 before = c.line ↔ CodeEndsOn c.line before := by
  obtain ⟨hinner, hends⟩ := Source.front_of_token h
  have hc : 0 < c.line :=
    (Source.marks_token (h ▸ List.mem_append_right before List.mem_cons_self)).line_pos
  have hpos : ∀ t ∈ before, 0 ≤ t.lastLine := fun t ht =>
    Int.le_trans (Int.le_trans (by decide) (s.tiles.line_bounds t (hinner.subset ht)).1)
      t.line_le_lastLine
  have hordered : before.Pairwise fun t u => t.lastLine ≤ u.lastLine :=
    (s.tiles.pairwise_lastLine.sublist hinner.sublist).imp fun {t u} h =>
      Int.le_trans h u.line_le_lastLine
  rw [codeLineAfter_eq_iff (Int.le_of_lt hc) (fun t ht => ⟨hpos t ht, hends t ht⟩) hordered]
  constructor
  · rintro (h0 | ⟨t, ht, hcode, hline⟩)
    · omega
    · exact ⟨t, ht, by simp_all [Token.isCode], hline⟩
  · rintro ⟨t, ht, htrivia, hline⟩
    have heof : t.isEof = false := by
      have hkind := (s.tiles.proper t (hinner.subset ht)).1
      simpa [Token.isEof] using hkind
    exact .inr ⟨t, ht, by simp [Token.isCode, htrivia, heof], hline⟩

/-- What the suppression of a comment covers. -/
theorem Token.suppression?_covers_iff {c : Token} {codeLine : Int} {d : Diagnostic} :
    (∃ s, c.suppression? codeLine = some s ∧ s.covers d = true) ↔
      ∃ reach list, c.kind = .comment ∧ Directive.Holds c.commentText.toList reach list ∧
        (Directive.Lists list d.rule ∨ Directive.Lists list "*") ∧
        (reach = .file ∨
          reach = .line ∧ codeLine = c.line ∧ d.location.line = c.line ∨
          reach = .line ∧ codeLine ≠ c.line ∧ d.location.line = c.line + 1) := by
  have hlists (reach : Reach) (coverage : Coverage) (list : List Char) :
      (Suppression.mk coverage (Directive.mk reach (Directive.idsOf list)).ids).lists d.rule = true
        ↔ Directive.Lists list d.rule ∨ Directive.Lists list "*" := by
    rw [Suppression.lists, Bool.or_eq_true, Directive.contains_idsOf_iff,
      Directive.contains_idsOf_iff]
  unfold suppression? directive?
  by_cases hkind : c.kind = .comment
  · simp only [if_pos hkind, Option.map_eq_some_iff, Directive.find?_eq_some_iff]
    constructor
    · rintro ⟨_, ⟨_, ⟨reach, list, hholds, rfl⟩, rfl⟩, hcovers⟩
      refine ⟨reach, list, hkind, hholds, ?_⟩
      rw [Suppression.covers, Bool.and_eq_true] at hcovers
      cases reach with
      | file => exact ⟨(hlists .file .file list).mp hcovers.2, .inl rfl⟩
      | line =>
        refine ⟨(hlists .line _ list).mp hcovers.2, .inr ?_⟩
        have hreaches := beq_iff_eq.mp hcovers.1
        split at hreaches
        · exact .inl ⟨rfl, ‹_›, hreaches.symm⟩
        · exact .inr ⟨rfl, ‹_›, hreaches.symm⟩
    · rintro ⟨reach, list, -, hholds, hlisted, hplace⟩
      refine ⟨_, ⟨_, ⟨reach, list, hholds, rfl⟩, rfl⟩, ?_⟩
      rw [Suppression.covers, Bool.and_eq_true]
      rcases hplace with rfl | ⟨rfl, hcode, hline⟩ | ⟨rfl, hcode, hline⟩
      · exact ⟨rfl, (hlists .file _ list).mpr hlisted⟩
      · refine ⟨?_, (hlists .line _ list).mpr hlisted⟩
        simp [Suppression.reaches, hcode, hline]
      · refine ⟨?_, (hlists .line _ list).mpr hlisted⟩
        simp [Suppression.reaches, hcode, hline]
  · simp [hkind]

/-- **A finding is covered exactly when a comment says so.**  Its rule is neither of the two that
nothing covers, and some comment of the text holds a directive that lists the rule or all rules and
either reaches the whole file, or stands behind code that ends on its line and names that line, or
stands behind no such code and names the next one. -/
theorem isSuppressed_iff_directive (raw path : String) (d : Diagnostic) :
    let ts := (Source.ofString raw path).lex.tokens
    Suppression.isSuppressed (suppressions ts) d = true ↔
      (d.rule ≠ .syntaxError ∧ d.rule ≠ .ioError) ∧
      ∃ before c after reach list, ts = before ++ c :: after ∧ c.kind = .comment ∧
        Directive.Holds c.commentText.toList reach list ∧
        (Directive.Lists list d.rule ∨ Directive.Lists list "*") ∧
        (reach = .file ∨
          reach = .line ∧ CodeEndsOn c.line before ∧ d.location.line = c.line ∨
          reach = .line ∧ ¬ CodeEndsOn c.line before ∧ d.location.line = c.line + 1) := by
  intro ts
  rw [Suppression.isSuppressed, Bool.and_eq_true]
  refine and_congr (by simp [unsuppressible]) ?_
  rw [List.any_eq_true]
  constructor
  · rintro ⟨s, hs, hcovers⟩
    obtain ⟨before, c, after, hts, hsuppression⟩ := mem_suppressionsAfter.mp hs
    obtain ⟨reach, list, hcovered⟩ := Token.suppression?_covers_iff.mp ⟨s, hsuppression, hcovers⟩
    rw [Ne, Source.codeLineAfter_eq_line_iff hts] at hcovered
    exact ⟨before, c, after, reach, list, hts, hcovered⟩
  · rintro ⟨before, c, after, reach, list, hts, hcovered⟩
    rw [← Source.codeLineAfter_eq_line_iff hts] at hcovered
    obtain ⟨s, hsuppression, hcovers⟩ :=
      Token.suppression?_covers_iff.mpr ⟨reach, list, hcovered⟩
    exact ⟨s, mem_suppressionsAfter.mpr ⟨before, c, after, hts, hsuppression⟩, hcovers⟩

end ContractLint
