/-
# Lexemes end inside their text

A lexeme answers how many of the characters after its first one belong to it.  The answer is a
number, and taking more characters than there are takes all of them, so a wrong number would not
show in the token at hand but in every token after it.

`lexeme_taken_le` says that the number is never too large, for any of the routines: escapes that may
run up to a distant slash, strings that end at a quote or at the end of the line, verbatim strings
that span lines, characters that are not closed, and numbers whose exponent turns out to be none.

The lemma for strings goes through their segments.  What the segments spell is a first part of the
content (`sources_prefix_content`), because an escape that was read spells exactly the characters
it was read from (`render_of_scan`).
-/
import ContractLint.Token.Lexed
import Mathlib.Data.List.Basic

namespace ContractLint

/-- A run that satisfies a predicate is no longer than its text. -/
theorem length_run_le (p : Char → Bool) (cs : List Char) :
    (cs.takeWhile p).length ≤ cs.length :=
  (List.takeWhile_sublist p).length_le

theorem length_restOfLine_le (cs : List Char) : (restOfLine cs).length ≤ cs.length :=
  length_run_le _ cs

/-! ## 1. Escapes -/

namespace Escape

/-- The radix marker and the digits of a code are the code. -/
theorem marker_append_digits (body : List Char) :
    (splitMarker body).2.1 ++ (splitMarker body).2.2 = body := by
  unfold splitMarker
  split
  · split <;> rfl
  · rfl

theorem render_of_ofCode {body : List Char} {e : Escape} (h : ofCode body = .ok e) :
    e.render = '%' :: '/' :: body ++ ['/'] := by
  have hbody := marker_append_digits body
  unfold ofCode at h
  generalize splitMarker body = parts at h hbody
  obtain ⟨radix, marker, digits⟩ := parts
  dsimp only at h hbody
  split at h
  · cases h
  split at h
  · cases h
  split at h
  · cases h
    simp only [render, hbody]
  · cases h

theorem scanNumeric_taken_le (cs : List Char) : (scanNumeric cs).taken ≤ cs.length + 1 := by
  unfold scanNumeric
  dsimp only
  split
  · rename_i rest h
    have hlength := congrArg List.length h
    rw [List.length_drop, List.length_cons] at hlength
    dsimp only
    omega
  · exact Nat.succ_le_succ (length_run_le _ cs)

theorem scan_taken_le (cs : List Char) : (scan cs).taken ≤ cs.length := by
  unfold scan
  split
  · exact Nat.zero_le _
  split
  · exact Nat.zero_le _
  split
  · exact scanNumeric_taken_le _
  · split <;> exact Nat.succ_le_succ (Nat.zero_le _)

/-- A closed code and its slash are the characters that a numeric escape takes after its first
slash. -/
theorem take_code {cs rest : List Char}
    (h : cs.drop (cs.takeWhile isCodeChar).length = '/' :: rest) :
    cs.take ((cs.takeWhile isCodeChar).length + 1) = cs.takeWhile isCodeChar ++ ['/'] := by
  rw [List.take_add_one, ← List.prefix_iff_eq_take.mp (List.takeWhile_prefix _),
    ← List.head?_drop, h]
  rfl

/-- What an escape is scanned from: a letter that stands for a character, or a code between
slashes. -/
theorem scan_cases {cs : List Char} {e : Escape} (h : (scan cs).outcome = .ok e) :
    (∃ letter v, namedValue? letter = some v ∧ e = ⟨.named letter, .ofChar v⟩ ∧
        cs.take (scan cs).taken = [letter]) ∨
      ∃ body, ofCode body = .ok e ∧ cs.take (scan cs).taken = '/' :: (body ++ ['/']) := by
  unfold scan at h ⊢
  split at h
  · cases h
  rename_i c cs
  split at h
  · cases h
  rename_i hline
  rw [if_neg hline]
  split at h
  · rename_i hslash
    rw [if_pos hslash, hslash]
    unfold scanNumeric at h ⊢
    dsimp only at h ⊢
    split at h
    · rename_i rest hrest
      exact .inr ⟨_, h, by rw [List.take_succ_cons, take_code hrest]⟩
    · cases h
  · rename_i hslash
    rw [if_neg hslash]
    split at h
    · rename_i v hv
      cases h
      exact .inl ⟨c, v, hv, rfl, rfl⟩
    · cases h

/-- **An escape spells the characters it was read from.** -/
theorem render_of_scan {cs : List Char} {e : Escape} (h : (scan cs).outcome = .ok e) :
    e.render = '%' :: cs.take (scan cs).taken := by
  rcases scan_cases h with ⟨letter, v, -, rfl, htake⟩ | ⟨body, hcode, htake⟩
  · rw [htake]
    rfl
  · rw [htake]
    exact render_of_ofCode hcode

end Escape

/-! ## 2. Segments -/

/-- A segment spells the characters it was read from. -/
theorem Segment.source_ofScan (offset : Int) (cs : List Char) :
    (Segment.ofScan offset cs (Escape.scan cs)).source =
      '%' :: cs.take (Escape.scan cs).taken := by
  unfold ofScan
  split
  · exact Escape.render_of_scan ‹_›
  · rfl

/-- **The segments of content spell a first part of it.** -/
theorem sources_prefix_content (stop : Char → Bool) (offset : Int) (cs : List Char) :
    Segment.sources (segments stop offset cs) <+: cs := by
  fun_induction segments stop offset cs with
  | case1 => exact List.prefix_rfl
  | case2 => exact List.nil_prefix
  | case3 offset rest s hstop =>
    rename_i ih
    have h := (List.prefix_append_right_inj (rest.take s.taken)).mpr ih
    rw [List.take_append_drop] at h
    rw [Segment.sources, List.flatMap_cons, Segment.source_ofScan]
    exact List.cons_prefix_cons.mpr ⟨rfl, h⟩
  | case4 offset c rest hstop hc tail =>
    rename_i ih
    have h := (List.prefix_append_right_inj tail).mpr ih
    rw [List.prefix_iff_eq_append.mp (List.takeWhile_prefix _)] at h
    exact List.cons_prefix_cons.mpr ⟨rfl, h⟩

/-! ## 3. Strings and characters -/

namespace Lexeme

theorem manifest_taken_le (offset : Int) (line : List Char) :
    (manifest offset line).taken ≤ line.length := by
  have hcontent := (sources_prefix_content (· == '"') (offset + 1) line).length_le
  unfold manifest
  dsimp only
  split
  · exact hcontent
  · rename_i hrest
    have hlength := congrArg List.length hrest
    rw [List.length_drop, List.length_cons] at hlength
    dsimp only
    omega

/-- The lines of a verbatim string's body up to its closing mark, the mark included, take no more
characters than the body has. -/
theorem verbatimBody_length_le {closer : List Char} :
    ∀ {lines content : List (List Char)} {n : Nat},
      verbatimBody closer lines = (content, some n) →
        (content.flatMap fun line => line ++ ['\n']).length + n ≤
          (Text.joinWith '\n' lines).length
  | [], _, _, h => by cases h
  | line :: lines, content, n, h => by
    simp only [verbatimBody] at h
    split at h
    · rename_i hclose
      cases h
      have h₁ := (List.isPrefixOf_iff_prefix.mp hclose).length_le
      have h₂ := length_run_le isIndent line
      rw [List.length_drop] at h₁
      cases lines with
      | nil => simp only [Text.joinWith, List.flatMap_nil, List.length_nil]; omega
      | cons l ls =>
        simp only [Text.joinWith, List.flatMap_nil, List.length_nil, List.length_append]
        omega
    · generalize hrest : verbatimBody closer lines = rest at h
      obtain ⟨content', closing⟩ := rest
      cases h
      have ih := verbatimBody_length_le hrest
      cases lines with
      | nil => cases hrest
      | cons l ls =>
        simp only [Text.joinWith, List.flatMap_cons, List.length_append, List.length_cons,
          List.length_nil] at ih ⊢
        omega

theorem verbatim_taken_le (closer : List Char) {opening cs : List Char} :
    (verbatim closer opening cs).taken ≤ cs.length := by
  unfold verbatim
  split
  · exact Nat.le_refl _
  · rename_i c body hbody
    have hlength := congrArg List.length hbody
    rw [List.length_drop, List.length_cons] at hlength
    generalize hlines : verbatimBody closer (Text.splitAt '\n' body) = lines
    obtain ⟨content, closing⟩ := lines
    dsimp only
    cases closing with
    | none => exact Nat.le_refl _
    | some n =>
      have h₁ := verbatimBody_length_le hlines
      rw [Text.joinWith_splitAt] at h₁
      dsimp only
      omega

theorem string_taken_le (offset : Int) (cs : List Char) :
    (string offset cs).taken ≤ cs.length := by
  unfold string
  dsimp only
  split
  · exact verbatim_taken_le _
  · exact Nat.le_trans (manifest_taken_le offset _) (length_restOfLine_le cs)

theorem characterContent_le (offset : Int) (c : Char) (rest : List Char) :
    (characterContent offset c rest).2 ≤ rest.length := by
  unfold characterContent
  split
  · exact Escape.scan_taken_le rest
  · exact Nat.zero_le _

theorem character_taken_le (offset : Int) (cs : List Char) :
    (character offset cs).taken ≤ cs.length := by
  have hline := length_restOfLine_le cs
  unfold character
  split
  · exact Nat.zero_le _
  · rename_i c rest hrest
    rw [hrest, List.length_cons] at hline
    split
    · dsimp only
      omega
    · have h₁ := characterContent_le (offset + 1) c rest
      generalize characterContent (offset + 1) c rest = content at h₁
      obtain ⟨seg, n⟩ := content
      have h₂ := length_run_le (· != '\'') (rest.drop n)
      rw [List.length_drop] at h₂
      dsimp only at h₁ ⊢
      split
      · rename_i hclosed
        rw [List.length_drop] at hclosed
        omega
      · omega

/-! ## 4. Numbers and operators -/

theorem fraction_le (cs : List Char) : fraction cs ≤ cs.length := by
  unfold fraction
  split
  · rename_i d rest
    have h₁ := length_run_le isNumberTail rest
    simp only [List.length_cons]
    split <;> omega
  · exact Nat.zero_le _

theorem sign_le (cs : List Char) : sign cs ≤ cs.length := by
  unfold sign
  split
  · split
    · exact Nat.succ_le_succ (Nat.zero_le _)
    · exact Nat.zero_le _
  · exact Nat.zero_le _

theorem exponent_le (cs : List Char) : exponent cs ≤ cs.length := by
  unfold exponent
  split
  · rename_i e rest
    have h₁ := sign_le rest
    have h₂ := length_run_le Text.isDigit (rest.drop (sign rest))
    rw [List.length_drop] at h₂
    split
    · split
      · exact Nat.zero_le _
      · rw [List.length_cons]
        omega
    · exact Nat.zero_le _
  · exact Nat.zero_le _

theorem decimalTail_le (cs : List Char) : decimalTail cs ≤ cs.length := by
  have h₁ := length_run_le isNumberTail cs
  have h₂ := fraction_le (cs.drop (cs.takeWhile isNumberTail).length)
  have h₃ := exponent_le (cs.drop ((cs.takeWhile isNumberTail).length +
    fraction (cs.drop (cs.takeWhile isNumberTail).length)))
  rw [List.length_drop] at h₂ h₃
  simp only [decimalTail]
  omega

theorem numberTail_le (c : Char) (cs : List Char) : numberTail c cs ≤ cs.length := by
  unfold numberTail
  split
  · rename_i letter rest
    split
    · have h₁ := length_run_le Text.isWordChar rest
      rw [List.length_cons]
      omega
    · exact decimalTail_le _
  · exact Nat.zero_le _

theorem operator_taken_le (c : Char) (cs : List Char) : (operator c cs).taken ≤ cs.length := by
  unfold operator
  split
  · rename_i s hs
    have hprefix : s.spelling.toList.isPrefixOf (c :: cs) = true :=
      List.find?_some (p := fun s : Symbol => s.spelling.toList.isPrefixOf (c :: cs)) hs
    have h₁ := (List.isPrefixOf_iff_prefix.mp hprefix).length_le
    rw [String.length_toList, List.length_cons] at h₁
    dsimp only
    omega
  · exact Nat.zero_le _

end Lexeme

/-- **A lexeme takes no more characters than follow its first one.** -/
theorem lexeme_taken_le (offset : Int) (c : Char) (cs : List Char) :
    (lexeme offset c cs).taken ≤ cs.length := by
  unfold lexeme
  split
  · exact length_restOfLine_le cs
  split
  · exact Lexeme.string_taken_le offset cs
  split
  · exact Lexeme.character_taken_le offset cs
  split
  · exact length_run_le _ cs
  split
  · exact Lexeme.numberTail_le c cs
  · exact Lexeme.operator_taken_le c cs

end ContractLint
