/-
# Line feeds in messages

A message is put together from fixed words and from what it copies of the analysed text.  This file
counts the line feeds that get into it that way (`Text.lineFeeds`).  Numbers and quoted texts have
none (`lineFeeds_quoted`), whatever they show.  A malformed escape may be shown as it is written,
because a scan of escapes never reaches over a line feed (`lineFeeds_of_scan`).

The errors of the grammar are different: they show the token that was found as it stands, with all
its line feeds (`lineFeeds_message_of_found`).
-/
import ContractLint.Proofs.Likeness
import ContractLint.Proofs.Spelling
import ContractLint.Token.Report
import Mathlib.Algebra.GroupWithZero.Nat

namespace ContractLint

/-! ## 1. Counting -/

namespace Text

/-- The number of line feeds of a text. -/
def lineFeeds (s : String) : Nat :=
  s.toList.count '\n'

@[simp] theorem lineFeeds_empty : lineFeeds "" = 0 := rfl

@[simp] theorem lineFeeds_append (a b : String) :
    lineFeeds (a ++ b) = lineFeeds a + lineFeeds b := by
  simp [lineFeeds]

theorem lineFeeds_append_eq_zero_iff {a b : String} :
    lineFeeds (a ++ b) = 0 ↔ lineFeeds a = 0 ∧ lineFeeds b = 0 := by
  rw [lineFeeds_append, Nat.add_eq_zero_iff]

/-- What an interpolated text adds to the text around it. -/
@[simp] theorem lineFeeds_toString (s : String) : lineFeeds (toString s) = lineFeeds s := rfl

theorem lineFeeds_eq_zero_iff {s : String} : lineFeeds s = 0 ↔ '\n' ∉ s.toList :=
  List.count_eq_zero

/-- A text that is given by its characters, as every literal is. -/
theorem lineFeeds_ofList (cs : List Char) : lineFeeds (String.ofList cs) = cs.count '\n' := by
  rw [lineFeeds, String.toList_ofList]

theorem lineFeeds_ofList_eq_zero_iff {cs : List Char} :
    lineFeeds (String.ofList cs) = 0 ↔ '\n' ∉ cs := by
  rw [lineFeeds_eq_zero_iff, String.toList_ofList]

/-- Joined texts have the line feeds of all of them. -/
theorem lineFeeds_join (texts : List String) :
    lineFeeds (String.join texts) = (texts.map lineFeeds).sum := by
  unfold lineFeeds
  rw [String.toList_join, List.count_flatMap]
  rfl

/-- A separator without line feeds adds none. -/
theorem lineFeeds_intercalate {sep : String} (hsep : lineFeeds sep = 0) (texts : List String) :
    lineFeeds (sep.intercalate texts) = (texts.map lineFeeds).sum := by
  unfold lineFeeds at hsep ⊢
  rw [String.toList_intercalate]
  induction texts with
  | nil => rfl
  | cons t ts ih =>
    cases ts with
    | nil => simp
    | cons u us =>
      rw [List.map_cons] at ih
      rw [List.map_cons, List.map_cons, List.intercalate_cons_cons, List.count_append,
        List.count_append, hsep, ih]
      simp

/-! ## 2. Numbers -/

theorem newline_notMem_toDigits {base : Nat} (hbase : 1 < base) (n : Nat) :
    '\n' ∉ Nat.toDigits base n := by
  -- Along the digits from the last to the first; what is left of `n` gets smaller.
  induction n using Nat.strongRecOn with
  | ind n ih =>
    have hdigit : ∀ d : Nat, '\n' ≠ d.digitChar := fun d => (Nat.digitChar_ne '\n' rfl).symm
    rcases Nat.lt_or_ge n base with hn | hn
    · rw [Nat.toDigits_of_lt_base hn]
      simp [hdigit n]
    · have hsmaller : n / base < n := Nat.div_lt_self (by omega) hbase
      rw [Nat.toDigits_of_base_le hbase hn]
      simp [ih _ hsmaller, hdigit]

@[simp] theorem lineFeeds_nat (n : Nat) : lineFeeds (toString n) = 0 := by
  rw [lineFeeds_eq_zero_iff]
  change '\n' ∉ n.repr.toList
  rw [Nat.toList_repr]
  exact newline_notMem_toDigits (by decide) n

@[simp] theorem lineFeeds_int (n : Int) : lineFeeds (toString n) = 0 := by
  cases n with
  | ofNat n => exact lineFeeds_nat n
  | negSucc n =>
    change lineFeeds ("-" ++ toString (n + 1)) = 0
    rw [lineFeeds_append, lineFeeds_nat]
    exact lineFeeds_ofList _

/-! ## 3. Quoted texts -/

theorem newline_notMem_hexDigits (width n : Nat) : '\n' ∉ hexDigits width n := by
  unfold hexDigits
  have hdigits := newline_notMem_toDigits (by decide : 1 < 16) n
  simp [hdigits]

/-- A line feed is shown by a letter; no other character is shown as a line feed. -/
theorem newline_notMem_shown {mark : Char} (hmark : mark ≠ '\n') (c : Char) :
    '\n' ∉ Quoted.shown mark c := by
  unfold Quoted.shown
  by_cases hescaped : (c == mark || c == '\\') = true
  · rw [if_pos hescaped]
    rcases (Bool.or_eq_true _ _).mp hescaped with h | h <;> cases beq_iff_eq.mp h
    · simp [hmark.symm]
    · decide
  rw [if_neg hescaped]
  by_cases hfeed : (c == '\n') = true
  · rw [if_pos hfeed]
    decide
  rw [if_neg hfeed]
  split
  · decide
  split
  · decide
  split
  · have hne : c ≠ '\n' := fun h => hfeed (beq_iff_eq.mpr h)
    simpa using hne.symm
  · unfold Quoted.coded
    repeat' split
    all_goals simp [newline_notMem_hexDigits]

/-- **Quoted text stays on its line.** -/
@[simp] theorem lineFeeds_quoted (s : String) : lineFeeds (quoted s) = 0 := by
  have hmark : Quoted.mark s.toList ≠ '\n' := by
    unfold Quoted.mark
    split <;> decide
  have hshown : ∀ c ∈ s.toList, '\n' ∉ Quoted.shown (Quoted.mark s.toList) c :=
    fun c _ => newline_notMem_shown hmark c
  unfold quoted
  rw [lineFeeds_ofList_eq_zero_iff]
  simpa [hmark.symm] using hshown

end Text

open Text

/-! ## 4. Faults of tokens and of escapes -/

@[simp] theorem TokenFault.lineFeeds_message (f : TokenFault) : lineFeeds f.message = 0 := by
  unfold message
  cases f with
  | unexpectedCharacter c =>
    simp only [lineFeeds_append_eq_zero_iff, lineFeeds_toString, lineFeeds_quoted, and_true]
    exact lineFeeds_ofList _
  | _ => exact lineFeeds_ofList _

/-- The characters that a fault shows as they are written. -/
def EscapeFault.written : EscapeFault → List Char
  | unknown letter => [letter]
  | badDigit _ _ body => body
  | _ => []

theorem EscapeFault.lineFeeds_message {f : EscapeFault} (h : '\n' ∉ f.written) :
    lineFeeds f.message = 0 := by
  unfold message
  cases f with
  | unknown letter =>
    have hletter : lineFeeds (toString letter) = 0 := lineFeeds_ofList_eq_zero_iff.mpr h
    simp only [lineFeeds_append_eq_zero_iff, lineFeeds_toString, hletter, and_true]
    exact ⟨lineFeeds_ofList _, lineFeeds_ofList _⟩
  | badDigit digit radix body =>
    have hbody : lineFeeds (String.ofList body) = 0 := lineFeeds_ofList_eq_zero_iff.mpr h
    have hradix : lineFeeds radix.label = 0 := by
      cases radix <;> exact lineFeeds_ofList _
    simp only [lineFeeds_append_eq_zero_iff, lineFeeds_toString, lineFeeds_quoted, hbody, hradix,
      and_assoc, and_true]
    exact ⟨lineFeeds_ofList _, lineFeeds_ofList _, lineFeeds_ofList _, lineFeeds_ofList _⟩
  | outOfRange code =>
    simp only [lineFeeds_append_eq_zero_iff, lineFeeds_toString, lineFeeds_nat, and_true]
    exact ⟨lineFeeds_ofList _, lineFeeds_ofList _⟩
  | _ => exact lineFeeds_ofList _

namespace Escape

theorem written_of_ofCode {body : List Char} {f : EscapeFault} (h : ofCode body = .error f) :
    f.written ⊆ body := by
  unfold ofCode at h
  dsimp only at h
  split at h
  · cases h
    exact List.nil_subset _
  split at h
  · cases h
    exact List.Subset.refl _
  split at h
  · cases h
  · cases h
    exact List.nil_subset _

theorem written_of_scanNumeric {cs : List Char} {f : EscapeFault}
    (h : (scanNumeric cs).outcome = .error f) : '\n' ∉ f.written := by
  unfold scanNumeric at h
  dsimp only at h
  split at h
  · intro hmem
    have hbody := List.mem_takeWhile_imp (written_of_ofCode h hmem)
    cases hbody
  · cases h
    exact List.not_mem_nil

/-- **A malformed escape is written on one line.** -/
theorem written_of_scan {cs : List Char} {f : EscapeFault} (h : (scan cs).outcome = .error f) :
    '\n' ∉ f.written := by
  cases cs with
  | nil =>
    cases h
    exact List.not_mem_nil
  | cons c cs =>
    rw [scan] at h
    by_cases hfeed : c = '\n'
    · rw [if_pos hfeed] at h
      cases h
      exact List.not_mem_nil
    rw [if_neg hfeed] at h
    split at h
    · exact written_of_scanNumeric h
    split at h
    · cases h
    · cases h
      simpa [EscapeFault.written] using Ne.symm hfeed

end Escape

theorem lineFeeds_of_scan {offset : Int} {cs : List Char} {i : EscapeIssue}
    (h : (Segment.ofScan offset cs (Escape.scan cs)).issue? = some i) :
    lineFeeds i.fault.message = 0 := by
  unfold Segment.ofScan at h
  split at h
  · cases h
  · rename_i fault houtcome
    cases h
    exact EscapeFault.lineFeeds_message (Escape.written_of_scan houtcome)

/-! ## 5. Findings of the scan -/

theorem lineFeeds_of_mem_segments {stop : Char → Bool} {offset : Int} {cs : List Char} :
    ∀ i ∈ Segment.issues (segments stop offset cs), lineFeeds i.fault.message = 0 := by
  fun_induction segments stop offset cs with
  | case1 => exact fun i hi => absurd hi List.not_mem_nil
  | case2 => exact fun i hi => absurd hi List.not_mem_nil
  | case3 offset rest _ s ih =>
    intro i hi
    unfold Segment.issues at hi
    rw [List.filterMap_cons] at hi
    split at hi
    · exact ih i hi
    · rename_i j hj
      rcases List.mem_cons.mp hi with rfl | hi
      · exact lineFeeds_of_scan hj
      · exact ih i hi
  | case4 offset c rest _ _ tail ih => exact fun i hi => ih i hi

theorem Lexeme.lineFeeds_of_mem_commentIssues {offset : Int} {cs : List Char} :
    ∀ i ∈ commentIssues offset cs, lineFeeds i.fault.message = 0 := by
  fun_induction commentIssues offset cs with
  | case1 => exact fun i hi => absurd hi List.not_mem_nil
  | case2 offset c rest _ s ih =>
    intro i hi
    rcases List.mem_append.mp hi with hi | hi
    · exact lineFeeds_of_scan (Option.mem_toList.mp hi)
    · exact ih i hi
  | case3 offset c rest _ ih => exact ih

theorem Lexeme.lineFeeds_of_mem_manifest {offset : Int} {line : List Char} :
    ∀ i ∈ (manifest offset line).issues, lineFeeds i.fault.message = 0 := by
  unfold manifest
  dsimp only
  split <;> exact lineFeeds_of_mem_segments

theorem Lexeme.lineFeeds_of_mem_character {offset : Int} {cs : List Char} :
    ∀ i ∈ (character offset cs).issues, lineFeeds i.fault.message = 0 := by
  unfold character
  split
  · exact fun i hi => absurd hi List.not_mem_nil
  split
  · exact fun i hi => absurd hi List.not_mem_nil
  · intro i hi
    obtain ⟨seg, hseg, hi⟩ := List.mem_filterMap.mp hi
    rw [List.mem_singleton.mp hseg, characterContent] at hi
    split at hi
    · exact lineFeeds_of_scan hi
    · cases hi

/-- **The malformed escapes of every token are told on one line.** -/
theorem lineFeeds_of_mem_lexeme {offset : Int} {c : Char} {cs : List Char} :
    ∀ i ∈ (lexeme offset c cs).issues, lineFeeds i.fault.message = 0 := by
  unfold lexeme
  split
  · exact Lexeme.lineFeeds_of_mem_commentIssues
  split
  · unfold Lexeme.string
    dsimp only
    split
    · intro i hi
      unfold Lexeme.verbatim at hi
      dsimp only at hi
      repeat' split at hi
      all_goals cases hi
    · exact Lexeme.lineFeeds_of_mem_manifest
  split
  · exact Lexeme.lineFeeds_of_mem_character
  split
  · exact fun i hi => absurd hi List.not_mem_nil
  split
  · exact fun i hi => absurd hi List.not_mem_nil
  · intro i hi
    unfold Lexeme.operator at hi
    split at hi <;> cases hi

/-- **What the scan reports is told on one line.** -/
theorem lineFeeds_of_mem_scanned {s : Source} {d : Diagnostic} (hd : d ∈ s.lex.diagnostics) :
    lineFeeds d.message = 0 := by
  obtain ⟨f, hf, rfl⟩ := List.mem_map.mp hd
  obtain ⟨p, hp, hf⟩ := List.mem_flatMap.mp hf
  cases scanned_of_mem_pieces p hp with
  | indent loc indent blank h =>
    unfold Piece.ofIndent at hf
    dsimp only at hf
    split at hf
    · cases hf
    dsimp only at hf
    split at hf
    · cases List.mem_singleton.mp hf
      simp only [Finding.diagnostic]
      exact lineFeeds_ofList _
    · cases hf
  | lexeme loc c rest h =>
    obtain ⟨i, hi, rfl⟩ := List.mem_map.mp hf
    have hfault := lineFeeds_of_mem_lexeme i hi
    simp only [Finding.diagnostic]
    split
    · simp only [lineFeeds_append_eq_zero_iff, lineFeeds_toString, hfault, true_and]
      exact lineFeeds_ofList _
    · exact hfault

/-! ## 6. Errors of the grammar -/

theorem Token.lineFeeds_described (t : Token) :
    lineFeeds t.described = if t.isEof then 0 else lineFeeds t.text := by
  unfold described
  split
  · exact lineFeeds_ofList _
  · have hmark : lineFeeds "'" = 0 := lineFeeds_ofList _
    simp only [lineFeeds_append, lineFeeds_toString, hmark, Nat.zero_add, Nat.add_zero]

/-- The word, symbol or name that a fault asks for. -/
def SyntaxFault.wanted : SyntaxFault → String
  | expectedKeyword word _ => word.word
  | expectedSymbol symbol _ => symbol.spelling
  | expectedName role _ => role.label
  | bareFeature name _ => name
  | _ => ""

/-- **A fault that shows a token has the token's line feeds.** -/
theorem SyntaxFault.lineFeeds_message_of_found {f : SyntaxFault} {t : Token}
    (h : f.found? = some t) : lineFeeds f.message = lineFeeds f.wanted + lineFeeds t.described := by
  unfold message
  cases f <;> cases h <;> simp only [wanted, lineFeeds_append, lineFeeds_toString] <;>
    repeat rw [lineFeeds_ofList]
  -- What is left of the fixed words is a list of characters, none of them a line feed.
  all_goals simp only [List.count_cons, List.count_nil, Char.reduceBEq, Bool.false_eq_true,
    if_false, Nat.zero_add, Nat.add_zero]

/-- A fault that shows no token is told on one line. -/
theorem SyntaxFault.lineFeeds_message_of_none {f : SyntaxFault} (h : f.found? = none) :
    lineFeeds f.message = 0 := by
  unfold message
  cases f with
  | token fault => exact fault.lineFeeds_message
  | _ => first | (cases h; done) | exact lineFeeds_ofList _

end ContractLint
