/-
# Strings and the decoder agree

Content is cut into segments twice.  The scan of a string reads on to the end of the line, and its
escapes may look past the quote that turns out to close it; `decode` is given the content alone and
cannot look any further.  They agree because a quote stops both searches of an escape, the one for
its closing slash and the one for the end of a code that has none (`Escape.scan_append`), and because
an escape that takes the quote itself takes it away from the end of the string.

* `segments_content`: decoding what the segments of a string spell gives the segments back;
* `issue_mem_lexeme`: a malformed escape lies inside the lexeme it was found in, so the findings
  inside a token are those of its own piece (`findings_within`);
* `literals_decode`: strings are what the decoder makes of their content, with the same values,
  findings and spelling, and characters are one code point between two quotes.
-/
import ContractLint.Proofs.BlankLine
import Mathlib

namespace ContractLint

/-! ## 1. Escapes in front of a quote -/

/-- What may follow the content of a string on its line: a quote, or nothing. -/
def EndsContent (tail : List Char) : Prop :=
  tail = [] ∨ ∃ more, tail = '"' :: more

/-- A run of characters other than the quote ends with the content. -/
theorem EndsContent.takeWhile_append {p : Char → Bool} {tail : List Char} (h : EndsContent tail)
    (hp : p '"' = false) (cs : List Char) : (cs ++ tail).takeWhile p = cs.takeWhile p := by
  rcases h with rfl | ⟨more, rfl⟩
  · rw [List.append_nil]
  · exact takeWhile_append_stop hp cs more

namespace Escape

/-- A numeric escape looks no further than a quote. -/
theorem scanNumeric_append {tail : List Char} (h : EndsContent tail) (cs : List Char) :
    scanNumeric (cs ++ tail) = scanNumeric cs := by
  have hcode := h.takeWhile_append (p := isCodeChar) rfl cs
  have hword := h.takeWhile_append (p := Text.isWordChar) (by decide) cs
  unfold scanNumeric
  dsimp only
  rw [hcode, hword, drop_run_append]
  cases hrest : cs.drop (cs.takeWhile isCodeChar).length with
  | nil =>
    rcases h with rfl | ⟨more, rfl⟩
    · rfl
    · rfl
  | cons c rest =>
    rw [List.cons_append]
    by_cases hc : c = '/'
    · subst hc
      rfl
    · split
      · rename_i heq
        exact absurd (List.cons.inj heq).1 hc
      · split
        · rename_i heq
          exact absurd (List.cons.inj heq).1 hc
        · rfl

/-- **An escape that leaves the quote to the string is the same without it.** -/
theorem scan_append {tail : List Char} (h : EndsContent tail) {cs : List Char}
    (hcs : cs ≠ [] ∨ tail = []) : scan (cs ++ tail) = scan cs := by
  cases cs with
  | nil =>
    rw [hcs.resolve_left (fun hne => hne rfl)]
    rfl
  | cons c cs =>
    rw [List.cons_append, scan, scan, scanNumeric_append h]

end Escape

/-! ## 2. Content -/

theorem decode_nil (offset : Int) : decode offset [] = [] := by
  rw [decode, segments]

theorem decode_escape (offset : Int) (rest : List Char) :
    decode offset ('%' :: rest) = Segment.ofScan offset rest (Escape.scan rest) ::
      decode (offset + 1 + (Escape.scan rest).taken) (rest.drop (Escape.scan rest).taken) := by
  rw [decode, segments, if_neg Bool.false_ne_true, if_pos rfl]
  rfl

/-- A plain run of content lasts up to the next percent sign. -/
theorem decode_plain (offset : Int) {c : Char} {run rest : List Char}
    (hrun : '%' ∉ c :: run) (hrest : ∀ d ∈ rest.head?, d = '%') :
    decode offset (c :: run ++ rest) =
      .plain (c :: run) :: decode (offset + 1 + run.length) rest := by
  have hc : c ≠ '%' := fun h => hrun (h ▸ List.mem_cons_self)
  have hplain : ∀ d ∈ run, isPlain (fun _ => false) d = true := fun d hd => by
    have hne : d ≠ '%' := fun h => hrun (h ▸ List.mem_cons_of_mem c hd)
    simp [isPlain, hne]
  have hstop : rest.takeWhile (isPlain fun _ => false) = [] := by
    cases rest with
    | nil => rfl
    | cons d rest =>
      obtain rfl := hrest d rfl
      rfl
  have htail : (run ++ rest).takeWhile (isPlain fun _ => false) = run := by
    rw [List.takeWhile_append_of_pos hplain, hstop, List.append_nil]
  rw [decode, List.cons_append, segments, if_neg Bool.false_ne_true, if_neg hc]
  dsimp only
  rw [htail, List.drop_left]
  rfl

/-- What is left behind a run. -/
theorem drop_run (p : Char → Bool) (cs : List Char) :
    cs.drop (cs.takeWhile p).length = cs.dropWhile p := by
  have hdrop : (cs.takeWhile p ++ cs.dropWhile p).drop (cs.takeWhile p).length = cs.dropWhile p :=
    List.drop_left
  rwa [List.takeWhile_append_dropWhile] at hdrop

/-- A plain run stops at a percent sign or at the quote, and the quote is not part of the
content. -/
theorem head?_behind_run (offset : Int) (rest : List Char) :
    ∀ d ∈ (Segment.sources (segments (· == '"') offset
      (rest.drop (rest.takeWhile (isPlain (· == '"'))).length))).head?, d = '%' := by
  rw [drop_run]
  have hnot := List.head?_dropWhile_not (isPlain (· == '"')) rest
  generalize rest.dropWhile (isPlain (· == '"')) = behind at hnot
  intro d hd
  cases behind with
  | nil =>
    rw [segments] at hd
    cases hd
  | cons e more =>
    -- what the segments spell is a first part of the text, so it starts with the same character
    have hstarts := sources_prefix_content (· == '"') offset (e :: more)
    obtain ⟨spelled, hspelled⟩ := List.head?_eq_some_iff.mp hd
    obtain rfl : d = e := by
      rw [hspelled] at hstarts
      exact (List.cons_prefix_cons.mp hstarts).1
    by_contra hne
    obtain rfl : d = '"' := by simpa [isPlain, hne] using hnot
    rw [segments, if_pos (beq_self_eq_true _)] at hd
    cases hd

/-- **What the segments of a string spell is its content.**  A quote or nothing follows it on the
line, and decoding it gives the segments back. -/
theorem segments_content (offset : Int) (cs : List Char) :
    (∃ tail, cs = Segment.sources (segments (· == '"') offset cs) ++ tail ∧ EndsContent tail) ∧
      decode offset (Segment.sources (segments (· == '"') offset cs)) =
        segments (· == '"') offset cs := by
  fun_induction segments (· == '"') offset cs with
  | case1 offset => exact ⟨⟨[], rfl, .inl rfl⟩, decode_nil offset⟩
  | case2 offset c rest hstop =>
    obtain rfl : c = '"' := by simpa using hstop
    exact ⟨⟨'"' :: rest, rfl, .inr ⟨rest, rfl⟩⟩, decode_nil offset⟩
  | case3 offset rest s hstop =>
    rename_i ih
    obtain ⟨⟨tail, hrest, htail⟩, hdecode⟩ := ih
    generalize hsegs : segments (· == '"') (offset + 1 + s.taken) (rest.drop s.taken) = segs at *
    have htaken : s.taken ≤ rest.length := Escape.scan_taken_le rest
    -- `inside` is what follows the percent sign in the content alone
    generalize hinside : rest.take s.taken ++ Segment.sources segs = inside
    have hsplit : inside ++ tail = rest := by
      rw [← hinside, List.append_assoc, ← hrest, List.take_append_drop]
    -- an escape whose sign stands in front of the quote takes the quote
    have hne : inside ≠ [] ∨ tail = [] := by
      rcases htail with rfl | ⟨more, rfl⟩
      · exact .inr rfl
      · refine .inl fun hnil => ?_
        rw [hnil, List.nil_append] at hsplit
        have htaken : s.taken = 1 := by
          unfold s
          rw [← hsplit]
          rfl
        rw [htaken, ← hsplit, hnil] at hinside
        cases hinside
    have hscan : Escape.scan inside = s := by
      rw [← Escape.scan_append htail hne, hsplit]
    have hlength : (rest.take s.taken).length = s.taken := List.length_take_of_le htaken
    have htake : inside.take s.taken = rest.take s.taken := by
      rw [← hinside, List.take_left' hlength]
    have hdrop : inside.drop s.taken = Segment.sources segs := by
      rw [← hinside, List.drop_left' hlength]
    have hsources : Segment.sources (Segment.ofScan offset rest s :: segs) = '%' :: inside := by
      rw [Segment.sources, List.flatMap_cons, Segment.source_ofScan, ← hinside]
      rfl
    rw [hsources]
    refine ⟨⟨tail, by rw [List.cons_append, hsplit], htail⟩, ?_⟩
    rw [decode_escape, hscan, hdrop, hdecode]
    exact congrArg (· :: segs) (by rw [Segment.ofScan, Segment.ofScan, htake])
  | case4 offset c rest hstop hc run =>
    rename_i ih
    obtain ⟨⟨tail, hrest, htail⟩, hdecode⟩ := ih
    have hrun : '%' ∉ c :: run := by
      intro hmem
      rcases List.mem_cons.mp hmem with h | hmem
      · exact hc h.symm
      · have hplain := List.mem_takeWhile_imp hmem
        cases hplain
    have hsplit : run ++ rest.drop run.length = rest :=
      List.prefix_iff_eq_append.mp (List.takeWhile_prefix _)
    refine ⟨⟨tail, ?_, htail⟩, ?_⟩
    · rw [Segment.sources, List.flatMap_cons, ← Segment.sources, List.append_assoc, ← hrest]
      exact congrArg (c :: ·) hsplit.symm
    · rw [Segment.sources, List.flatMap_cons, ← Segment.sources]
      exact (decode_plain offset hrun (head?_behind_run _ rest)).trans (by rw [hdecode])

/-! ## 3. Where malformed escapes are -/

/-- The issue of a segment is at the offset of its escape. -/
theorem Segment.offset?_of_issue? {seg : Segment} {i : EscapeIssue} (h : seg.issue? = some i) :
    seg.offset? = some i.offset := by
  cases seg with
  | plain | escape => cases h
  | malformed offset raw fault =>
    cases h
    rfl

/-- The issues of segments lie where their escapes do. -/
theorem Segment.bounds_of_mem_issues {segs : List Segment} {lo hi : Int}
    (h : ∀ seg ∈ segs, ∀ o ∈ seg.offset?, lo ≤ o ∧ o < hi) :
    ∀ i ∈ issues segs, lo ≤ i.offset ∧ i.offset < hi := by
  intro i hi
  obtain ⟨seg, hseg, hissue⟩ := List.mem_filterMap.mp hi
  exact h seg hseg i.offset (offset?_of_issue? hissue)

namespace Lexeme

/-- The malformed escapes of a comment lie inside it. -/
theorem bounds_of_mem_commentIssues (offset : Int) (cs : List Char) :
    ∀ i ∈ commentIssues offset cs, offset ≤ i.offset ∧ i.offset < offset + cs.length := by
  fun_induction commentIssues offset cs with
  | case1 => exact fun i hi => absurd hi List.not_mem_nil
  | case2 offset c rest hc s ih =>
    have htaken : s.taken ≤ rest.length := Escape.scan_taken_le rest
    intro i hi
    rw [List.length_cons]
    rcases List.mem_append.mp hi with hi | hi
    · have hoffset := Segment.offset?_of_issue? (Option.mem_toList.mp hi)
      rw [Segment.offset?_ofScan] at hoffset
      obtain rfl := Option.some.inj hoffset
      omega
    · have hbounds := ih i hi
      rw [List.length_drop] at hbounds
      omega
  | case3 offset c rest hc ih =>
    intro i hi
    have hbounds := ih i hi
    rw [List.length_cons]
    omega

/-- What a string on one line takes: its content, and the quote that may close it. -/
theorem manifest_taken (offset : Int) (line : List Char) :
    let content := Segment.sources (ContractLint.segments (· == '"') (offset + 1) line)
    ((manifest offset line).fault = some .unterminatedString ∧ line = content ∧
        (manifest offset line).taken = content.length) ∨
      ((manifest offset line).fault = none ∧ (∃ more, line = content ++ '"' :: more) ∧
        (manifest offset line).taken = content.length + 1) := by
  intro content
  obtain ⟨⟨tail, hline, htail⟩, -⟩ := segments_content (offset + 1) line
  have hdrop : line.drop content.length = tail := by
    nth_rewrite 1 [hline]
    exact List.drop_left
  unfold manifest
  dsimp only
  rw [hdrop]
  rcases htail with rfl | ⟨more, rfl⟩
  · exact .inl ⟨rfl, by rwa [List.append_nil] at hline, rfl⟩
  · exact .inr ⟨rfl, ⟨more, hline⟩, rfl⟩

theorem issues_manifest (offset : Int) (line : List Char) :
    (manifest offset line).issues =
      Segment.issues (ContractLint.segments (· == '"') (offset + 1) line) := by
  unfold manifest
  dsimp only
  split <;> rfl

theorem bounds_of_mem_manifest (offset : Int) (line : List Char) :
    ∀ i ∈ (manifest offset line).issues,
      offset ≤ i.offset ∧ i.offset < offset + 1 + (manifest offset line).taken := by
  obtain ⟨-, hdecode⟩ := segments_content (offset + 1) line
  have htaken := manifest_taken offset line
  rw [issues_manifest, ← hdecode]
  intro i hi
  have hbounds := Segment.bounds_of_mem_issues (escape_mem_segments _ _ _) i hi
  omega

theorem bounds_of_mem_string (offset : Int) (cs : List Char) :
    ∀ i ∈ (string offset cs).issues,
      offset ≤ i.offset ∧ i.offset < offset + 1 + (string offset cs).taken := by
  unfold string
  dsimp only
  split
  · unfold verbatim
    split
    · exact fun i hi => absurd hi List.not_mem_nil
    · dsimp only
      split <;> exact fun i hi => absurd hi List.not_mem_nil
  · exact bounds_of_mem_manifest offset _

theorem bounds_of_mem_character (offset : Int) (cs : List Char) :
    ∀ i ∈ (character offset cs).issues,
      offset ≤ i.offset ∧ i.offset < offset + 1 + (character offset cs).taken := by
  unfold character
  split
  · exact fun i hi => absurd hi List.not_mem_nil
  split
  · exact fun i hi => absurd hi List.not_mem_nil
  · rename_i c rest _ _
    intro i hi
    have hoffset : offset + 1 ≤ i.offset ∧ i.offset < offset + 2 := by
      refine Segment.bounds_of_mem_issues (fun seg hseg o ho => ?_) i hi
      rw [List.mem_singleton.mp hseg, characterContent] at ho
      split at ho
      · obtain rfl : offset + 1 = o := by simpa [Segment.offset?_ofScan] using ho
        omega
      · cases ho
    dsimp only
    omega

end Lexeme

/-- **A malformed escape lies inside the lexeme it was found in.** -/
theorem issue_mem_lexeme (offset : Int) (c : Char) (cs : List Char) :
    ∀ i ∈ (lexeme offset c cs).issues,
      offset ≤ i.offset ∧ i.offset < offset + 1 + (lexeme offset c cs).taken := by
  unfold lexeme
  split
  · intro i hi
    have hbounds := Lexeme.bounds_of_mem_commentIssues _ _ i hi
    rw [List.length_drop] at hbounds
    simp only [Lexeme.comment]
    omega
  split
  · exact Lexeme.bounds_of_mem_string offset cs
  split
  · exact Lexeme.bounds_of_mem_character offset cs
  split
  · exact fun i hi => absurd hi List.not_mem_nil
  split
  · exact fun i hi => absurd hi List.not_mem_nil
  · unfold Lexeme.operator
    split <;> exact fun i hi => absurd hi List.not_mem_nil

/-- The finding of a lexeme's issue is at the offset of the issue. -/
theorem offset_of_issue {loc : Location} {text : List Char} {i : EscapeIssue}
    (hlo : loc.offset ≤ i.offset) (hhi : i.offset < loc.offset + text.length) :
    (loc.after (text.take (i.offset - loc.offset).toNat)).offset = i.offset := by
  rw [Location.offset_after, List.length_take]
  omega

/-- A run ends in front of a character that does not satisfy its predicate. -/
theorem length_run_lt {p : Char → Bool} {c : Char} {cs : List Char} (hc : c ∈ cs)
    (hp : p c = false) : (cs.takeWhile p).length < cs.length := by
  refine Nat.lt_of_le_of_ne (length_run_le p cs) fun hlength => ?_
  have heq := (List.takeWhile_prefix p).eq_of_length hlength
  have htrue : p c = true := List.mem_takeWhile_imp (heq.symm ▸ hc)
  rw [hp] at htrue
  cases htrue

/-- The text of a lexeme's token. -/
theorem length_lexeme_text (offset : Int) (c : Char) (rest : List Char) :
    (c :: rest.take (lexeme offset c rest).taken).length = 1 + (lexeme offset c rest).taken := by
  rw [List.length_cons, List.length_take_of_le (lexeme_taken_le offset c rest)]
  omega

theorem Piece.findings_ofIndent_eq (loc : Location) (indent : List Char) (blank : Bool) :
    (Piece.ofIndent loc indent blank).findings =
      if ' ' ∈ indent ∧ blank = false then
        [⟨.spaceIndent, loc.after (indent.takeWhile (· != ' '))⟩]
      else [] := by
  unfold Piece.ofIndent
  by_cases hspace : ' ' ∈ indent
  · have hne : indent ≠ [] := List.ne_nil_of_mem hspace
    cases blank <;> simp [hspace, hne]
  · simp only [List.contains_iff_mem, hspace, false_and, if_false]
    split <;> rfl

/-- **A finding is covered by the token of its own piece.** -/
theorem Piece.Scanned.covers {p : Piece} (h : p.Scanned) :
    ∀ f ∈ p.findings, ∃ t, p.token = some t ∧ t.Covers f.location.offset := by
  cases h with
  | indent loc indent blank h =>
    intro f hf
    unfold ofIndent at hf ⊢
    dsimp only at hf ⊢
    split at hf
    · cases hf
    · rename_i hne
      rw [if_neg hne]
      refine ⟨_, rfl, ?_⟩
      dsimp only at hf
      split at hf
      · rename_i hspace
        have hlength : (indent.takeWhile (· != ' ')).length < indent.length :=
          length_run_lt (List.contains_iff_mem.mp hspace) rfl
        rw [List.mem_singleton.mp hf]
        simp only [Token.Covers, Token.offset, Token.endOffset, Location.offset_after,
          String.length_ofList]
        omega
      · cases hf
  | lexeme loc c rest h =>
    intro f hf
    refine ⟨_, rfl, ?_⟩
    obtain ⟨i, hi, rfl⟩ := List.mem_map.mp hf
    have hbounds := issue_mem_lexeme loc.offset c rest i hi
    have hlength := length_lexeme_text loc.offset c rest
    have hoffset := offset_of_issue hbounds.1 (by rw [hlength]; omega)
    simp only [Token.Covers, Token.offset, Token.endOffset, String.length_ofList]
    rw [hoffset, hlength]
    omega

instance (t : Token) (offset : Int) : Decidable (t.Covers offset) :=
  inferInstanceAs (Decidable (_ ∧ _))

/-- **The findings inside a token are those of its piece.** -/
theorem findings_within {s : Source} {p : Piece} {t : Token} (hp : p ∈ s.pieceList)
    (ht : p.token = some t) :
    s.lex.findings.filter (fun f => decide (t.Covers f.location.offset)) = p.findings := by
  obtain ⟨before, after, hsplit⟩ := List.append_of_mem hp
  have hpairwise := s.tiles.pairwise
  rw [Source.innerTokens, hsplit, List.filterMap_append, List.filterMap_cons, ht] at hpairwise
  obtain ⟨-, hafter, hbefore⟩ := List.pairwise_append.mp hpairwise
  have hscanned : ∀ q ∈ s.pieceList, q.Scanned := scanned_of_mem_pieces
  rw [hsplit] at hscanned
  have hfront : ∀ q ∈ before, ∀ f ∈ q.findings, ¬ t.Covers f.location.offset := by
    intro q hq f hf hcovers
    obtain ⟨u, hu, hcovers'⟩ := (hscanned q (List.mem_append_left _ hq)).covers f hf
    have hends := hbefore u (List.mem_filterMap.mpr ⟨q, hq, hu⟩) t List.mem_cons_self
    unfold Token.Covers at hcovers hcovers'
    omega
  have hback : ∀ q ∈ after, ∀ f ∈ q.findings, ¬ t.Covers f.location.offset := by
    intro q hq f hf hcovers
    obtain ⟨u, hu, hcovers'⟩ :=
      (hscanned q (List.mem_append_right _ (List.mem_cons_of_mem p hq))).covers f hf
    have hends := (List.pairwise_cons.mp hafter).1 u (List.mem_filterMap.mpr ⟨q, hq, hu⟩)
    unfold Token.Covers at hcovers hcovers'
    omega
  have hout (qs : List Piece) (h : ∀ q ∈ qs, ∀ f ∈ q.findings, ¬ t.Covers f.location.offset) :
      (qs.flatMap Piece.findings).filter (fun f => decide (t.Covers f.location.offset)) = [] := by
    refine List.filter_eq_nil_iff.mpr fun f hf => ?_
    obtain ⟨q, hq, hf⟩ := List.mem_flatMap.mp hf
    simpa using h q hq f hf
  have hown : p.findings.filter (fun f => decide (t.Covers f.location.offset)) = p.findings := by
    refine List.filter_eq_self.mpr fun f hf => ?_
    obtain ⟨u, hu, hcovers⟩ :=
      (hscanned p (List.mem_append_right _ List.mem_cons_self)).covers f hf
    obtain rfl := Option.some.inj (ht.symm.trans hu)
    simpa using hcovers
  rw [Source.lex]
  dsimp only
  rw [hsplit, List.flatMap_append, List.flatMap_cons, List.filter_append, List.filter_append,
    hout before hfront, hout after hback, hown, List.nil_append, List.append_nil]

/-! ## 4. Literals -/

namespace Token

/-- Whether the token opens as a verbatim string: only blanks follow the bracket or brace behind its
quote on that line. -/
def opensVerbatim (t : Token) : Bool :=
  (Lexeme.verbatimCloser? (restOfLine (t.text.toList.drop 1))).isSome

/-- What a string has between its quotes.  A faulty string has no closing quote. -/
def content (t : Token) : List Char :=
  if t.fault = none then (t.text.toList.drop 1).dropLast else t.text.toList.drop 1

end Token

/-- Strings start with a quote, characters with an apostrophe, and no other lexeme is a literal with
content. -/
theorem lexeme_literal (offset : Int) (c : Char) (cs : List Char) :
    (c = '"' ∧ lexeme offset c cs = .string offset cs) ∨
      (c = '\'' ∧ lexeme offset c cs = .character offset cs) ∨
        (lexeme offset c cs).kind ∉ [.string, .character, .numericEscape] := by
  by_cases hquote : c = '"'
  · subst hquote
    exact .inl ⟨rfl, rfl⟩
  by_cases happo : c = '\''
  · subst happo
    exact .inr (.inl ⟨rfl, rfl⟩)
  refine .inr (.inr ?_)
  unfold lexeme
  rw [if_neg hquote, if_neg happo]
  split
  · simp [Lexeme.comment]
  split
  · unfold Lexeme.word
    dsimp only
    cases Keyword.ofText? (c :: cs.takeWhile Lexeme.isWordTail) <;> simp
  split
  · simp
  · unfold Lexeme.operator
    split <;> simp

theorem lexeme_of_string {offset : Int} {c : Char} {cs : List Char}
    (h : (lexeme offset c cs).kind = .string) : c = '"' ∧ lexeme offset c cs = .string offset cs := by
  rcases lexeme_literal offset c cs with hx | ⟨-, hx⟩ | hx
  · exact hx
  · rcases Lexeme.kind_character offset cs with hkind | hkind <;>
      rw [hx, hkind] at h <;> cases h
  · simp [h] at hx

theorem lexeme_of_character {offset : Int} {c : Char} {cs : List Char}
    (h : (lexeme offset c cs).kind = .character ∨ (lexeme offset c cs).kind = .numericEscape) :
    c = '\'' ∧ lexeme offset c cs = .character offset cs := by
  rcases lexeme_literal offset c cs with ⟨-, hx⟩ | hx | hx
  · rw [hx, Lexeme.kind_string] at h
    rcases h with h | h <;> cases h
  · exact hx
  · rcases h with h | h <;> simp [h] at hx

namespace Lexeme

/-- The opening line of a verbatim string is part of it. -/
theorem length_le_verbatim_taken {closer opening cs : List Char}
    (hopening : opening.length ≤ cs.length) :
    opening.length ≤ (verbatim closer opening cs).taken := by
  unfold verbatim
  split
  · exact hopening
  · dsimp only
    split
    · dsimp only
      omega
    · exact hopening

/-- A text is its first line and what is left of it. -/
theorem restOfLine_append_drop (cs : List Char) :
    restOfLine cs ++ cs.drop (restOfLine cs).length = cs :=
  List.prefix_iff_eq_append.mp (List.takeWhile_prefix _)

/-- What is taken from the line that a text starts with is taken from the text. -/
theorem take_restOfLine {cs : List Char} {n : Nat} (h : n ≤ (restOfLine cs).length) :
    cs.take n = (restOfLine cs).take n := by
  nth_rewrite 1 [← restOfLine_append_drop cs]
  exact List.take_append_of_le_length h

/-- What a string on one line takes of the text is its content and the quote that may close it. -/
theorem take_manifest (offset : Int) (cs : List Char) :
    let x := manifest offset (restOfLine cs)
    let content := Segment.sources x.segments
    (x.fault = some .unterminatedString ∧ cs.take x.taken = content) ∨
      (x.fault = none ∧ cs.take x.taken = content ++ ['"']) := by
  intro x content
  rw [take_restOfLine (manifest_taken_le offset _)]
  unfold content
  rw [segments_manifest]
  rcases manifest_taken offset (restOfLine cs) with
    ⟨hfault, hline, htaken⟩ | ⟨hfault, ⟨more, hline⟩, htaken⟩
  · refine .inl ⟨hfault, ?_⟩
    rw [htaken, ← hline, List.take_length]
  · refine .inr ⟨hfault, ?_⟩
    rw [htaken]
    nth_rewrite 2 [hline]
    rw [List.take_length_add_append]
    rfl

/-- A line that ends with a quote opens no verbatim string, for the quote is not blank. -/
theorem verbatimCloser?_concat_quote (line : List Char) : verbatimCloser? (line ++ ['"']) = none := by
  have hblank {c : Char} {rest : List Char} (h : line ++ ['"'] = c :: rest) (hc : '"' ≠ c) :
      rest.all Text.isBlank = false := by
    have hmem : '"' ∈ c :: rest := h ▸ List.mem_append_right line List.mem_cons_self
    exact List.all_eq_false.mpr ⟨'"', (List.mem_cons.mp hmem).resolve_left hc, by decide⟩
  unfold verbatimCloser?
  split
  · rename_i rest h
    rw [hblank h (by decide)]
    rfl
  · rename_i rest h
    rw [hblank h (by decide)]
    rfl
  · rfl

/-- **The text of a string tells whether it is a verbatim one**, as the line of its opening quote
does. -/
theorem verbatimCloser?_take (offset : Int) (cs : List Char) :
    verbatimCloser? (restOfLine (cs.take (string offset cs).taken)) =
      verbatimCloser? (restOfLine cs) := by
  unfold string
  dsimp only
  split
  · rename_i closer hcloser
    have hle : (restOfLine cs).length ≤ (verbatim closer (restOfLine cs) cs).taken :=
      length_le_verbatim_taken (length_restOfLine_le cs)
    unfold restOfLine at hle ⊢
    rw [← List.take_takeWhile, List.take_of_length_le hle]
  · rename_i hcloser
    have hline : restOfLine (cs.take (manifest offset (restOfLine cs)).taken) =
        cs.take (manifest offset (restOfLine cs)).taken := by
      rw [take_restOfLine (manifest_taken_le offset _), restOfLine, restOfLine,
        ← List.take_takeWhile, List.takeWhile_idem]
    rw [hline, hcloser]
    rcases take_manifest offset cs with ⟨hfault, htake⟩ | ⟨hfault, htake⟩
    · -- an open string reaches up to the end of its line
      rw [htake, segments_manifest]
      rcases manifest_taken offset (restOfLine cs) with ⟨-, hopen, -⟩ | ⟨hclosed, -, -⟩
      · rw [← hopen, hcloser]
      · rw [hfault] at hclosed
        cases hclosed
    · rw [htake, verbatimCloser?_concat_quote]

/-- The content of a character literal stands for one code point and spells what it takes. -/
theorem characterContent_cases (offset : Int) (c : Char) (rest : List Char) :
    let content := characterContent offset c rest
    (∃ p, content.1.value = [p]) ∧ content.1.source = c :: rest.take content.2 := by
  unfold characterContent
  dsimp only
  split
  · rename_i hc
    refine ⟨?_, by rw [Segment.source_ofScan, hc]⟩
    unfold Segment.ofScan
    split
    · exact ⟨_, rfl⟩
    · exact ⟨_, rfl⟩
  · exact ⟨⟨_, rfl⟩, rfl⟩

/-- The text of a character without a fault. -/
theorem take_character {offset : Int} {cs : List Char} (h : (character offset cs).fault = none) :
    ∃ seg, (character offset cs).segments = [seg] ∧ (∃ p, seg.value = [p]) ∧
      cs.take (character offset cs).taken = seg.source ++ ['\''] := by
  unfold character at h ⊢
  split at h
  · cases h
  rename_i c rest hline
  split at h
  · cases h
  rename_i hc
  rw [if_neg hc]
  obtain ⟨hvalue, hsource⟩ := characterContent_cases (offset + 1) c rest
  have hle := characterContent_le (offset + 1) c rest
  generalize characterContent (offset + 1) c rest = content at h hvalue hsource hle ⊢
  obtain ⟨seg, n⟩ := content
  dsimp only at h hvalue hsource hle ⊢
  refine ⟨seg, rfl, hvalue, ?_⟩
  -- without a fault the apostrophe comes right behind the content
  obtain ⟨more, hafter⟩ : ∃ more, rest.drop n = '\'' :: more := by
    cases hdrop : rest.drop n with
    | nil => simp [hdrop] at h
    | cons d more =>
      by_cases hd : d = '\''
      · exact ⟨more, by rw [hd]⟩
      · simp only [hdrop, List.takeWhile_cons, bne_iff_ne, ne_eq, hd, not_false_eq_true, if_true,
          List.length_cons, Nat.add_one_ne_zero, if_false] at h
        split at h <;> cases h
  have htaken : 1 + n + ((rest.drop n).takeWhile (· != '\'')).length +
      (if ((rest.drop n).takeWhile (· != '\'')).length < (rest.drop n).length then 1 else 0) =
        n + 2 := by
    rw [hafter, List.takeWhile_cons_of_neg (by decide), List.length_nil, List.length_cons,
      if_pos (Nat.zero_lt_succ _)]
    omega
  have hlength : n + 2 ≤ (restOfLine cs).length := by
    have hdrop := congrArg List.length hafter
    rw [List.length_drop, List.length_cons] at hdrop
    rw [hline, List.length_cons]
    omega
  rw [htaken, take_restOfLine hlength, hline, hsource, List.take_succ_cons, List.take_add, hafter]
  rfl

end Lexeme

theorem Finding.location_diagnostic (path : String) (f : Finding) :
    (f.diagnostic path).location = f.location := by
  unfold diagnostic
  split <;> rfl

/-- The diagnostics of malformed escapes inside a token. -/
def Lexed.escapesIn (x : Lexed) (t : Token) : List Diagnostic :=
  x.diagnostics.filter fun d => d.rule == .invalidEscape && decide (t.Covers d.location.offset)

/-- The diagnostics inside a token are those of the findings inside it. -/
theorem Lexed.escapesIn_eq (x : Lexed) (t : Token) :
    x.escapesIn t = ((x.findings.filter fun f => decide (t.Covers f.location.offset)).map
      (Finding.diagnostic x.source.path)).filter fun d => d.rule == .invalidEscape := by
  rw [escapesIn, diagnostics, List.filter_map, List.filter_map, List.filter_filter]
  refine congrArg (List.map _) (List.filter_congr fun f _ => ?_)
  rw [Function.comp_apply, Finding.location_diagnostic]
  rfl

/-- The diagnostics of a lexeme's findings are those of its issues, at the same offsets. -/
theorem diagnostics_ofLexeme (path : String) (loc : Location) (c : Char) (rest : List Char)
    (hkind : (lexeme loc.offset c rest).kind ≠ .comment) :
    let x := lexeme loc.offset c rest
    let ds := (Piece.ofLexeme loc (c :: rest.take x.taken) x).findings.map (Finding.diagnostic path)
    (ds.filter fun d => d.rule == .invalidEscape) = ds ∧
      ds.map (fun d => (d.location.offset, d.message)) =
        x.issues.map fun i => (i.offset, i.fault.message) := by
  intro x ds
  have hdiagnostic (i : EscapeIssue) (l : Location) :
      (Finding.mk (.escape i.fault (x.kind == .comment)) l).diagnostic path =
        { rule := .invalidEscape, severity := .error, message := i.fault.message, location := l,
          path := path } := by
    simp [Finding.diagnostic, x, hkind]
  have hds : ds = x.issues.map fun i =>
      { rule := .invalidEscape, severity := .error, message := i.fault.message,
        location := loc.after ((c :: rest.take x.taken).take (i.offset - loc.offset).toNat),
        path := path } := by
    simp only [ds, Piece.ofLexeme, List.map_map, Function.comp_def, hdiagnostic]
  refine ⟨?_, ?_⟩
  · rw [hds, List.filter_map]
    refine congrArg (List.map _) (List.filter_eq_self.mpr fun i _ => ?_)
    rfl
  · rw [hds, List.map_map]
    refine List.map_congr_left fun i hi => ?_
    have hbounds := issue_mem_lexeme loc.offset c rest i hi
    have hlength := length_lexeme_text loc.offset c rest
    rw [Function.comp_apply, offset_of_issue hbounds.1 (by rw [hlength]; omega)]

/-- **A literal comes from a lexeme**, and the malformed escapes inside it are the lexeme's. -/
theorem Source.literal_cases {s : Source} {t : Token} (ht : t ∈ s.lex.tokens)
    (hkind : t.kind ∈ [.string, .character, .numericEscape]) :
    ∃ c rest x, x = lexeme t.offset c rest ∧ t.kind = x.kind ∧
      t.text.toList = c :: rest.take x.taken ∧ t.segments = x.segments ∧ t.fault = x.fault ∧
      (s.lex.escapesIn t).map (fun d => (d.location.offset, d.message)) =
        x.issues.map fun i => (i.offset, i.fault.message) := by
  rcases List.mem_append.mp ht with ht | ht
  · obtain ⟨p, hp, hpt⟩ := List.mem_filterMap.mp ht
    have hescapes := s.lex.escapesIn_eq t
    rw [findings_within hp hpt] at hescapes
    cases scanned_of_mem_pieces p hp with
    | indent loc indent blank h =>
      rw [Piece.token_ofIndent] at hpt
      split at hpt
      · cases hpt
      · obtain rfl := Option.some.inj hpt
        simp at hkind
    | lexeme loc c rest h =>
      rw [Piece.token_ofLexeme] at hpt
      obtain rfl := Option.some.inj hpt
      have hcomment : (lexeme loc.offset c rest).kind ≠ .comment := by
        rintro hcomment
        simp [hcomment] at hkind
      obtain ⟨hall, hissues⟩ := diagnostics_ofLexeme s.lex.source.path loc c rest hcomment
      rw [hall] at hescapes
      exact ⟨c, rest, _, rfl, rfl, String.toList_ofList, rfl, rfl, hescapes ▸ hissues⟩
  · rw [List.mem_singleton.mp ht] at hkind
    simp [Source.eof] at hkind

/-- The content of a string on one line is what its segments spell. -/
theorem Token.content_eq {t : Token} {rest : List Char} {offset : Int}
    (htext : t.text.toList =
      '"' :: rest.take (Lexeme.manifest offset (restOfLine rest)).taken)
    (hfault : t.fault = (Lexeme.manifest offset (restOfLine rest)).fault) :
    t.content = Segment.sources (Lexeme.manifest offset (restOfLine rest)).segments := by
  rw [content, htext, List.drop_one, List.tail_cons, hfault]
  rcases Lexeme.take_manifest offset rest with ⟨h, htake⟩ | ⟨h, htake⟩
  · rw [h, if_neg (by simp), htake]
  · rw [h, if_pos rfl, htake, List.dropLast_concat]

/-- **Literals are what the decoder makes of their content.**  A string that is not verbatim has the
segments and the value of its decoded content, the malformed escapes reported inside it are the
decoder's, at the same offsets and in the same order, and its segments spell the content.  A
character without a fault is one code point, spelled between two apostrophes. -/
theorem literals_decode (raw path : String) :
    let x := (Source.ofString raw path).lex
    (∀ t ∈ x.tokens, t.kind = .string → t.opensVerbatim = false →
      let segs := decode (t.offset + 1) t.content
      t.segments = segs ∧ t.value = Segment.values segs ∧
        (x.escapesIn t).map (fun d => (d.location.offset, d.message)) =
          (Segment.issues segs).map (fun i => (i.offset, i.fault.message)) ∧
        Segment.sources t.segments = t.content) ∧
    ∀ t ∈ x.tokens, t.kind = .character ∨ t.kind = .numericEscape → t.fault = none →
      t.text.toList = '\'' :: Segment.sources t.segments ++ ['\''] ∧ ∃ p, t.value = [p] := by
  intro x
  refine ⟨fun t ht hkind hverbatim => ?_, fun t ht hkind hfault => ?_⟩
  · obtain ⟨c, rest, y, rfl, hkind', htext, hsegments, hfault, hescapes⟩ :=
      Source.literal_cases ht (by simp [hkind])
    obtain ⟨rfl, hstring⟩ := lexeme_of_string (hkind'.symm.trans hkind)
    have hmanifest : lexeme t.offset '"' rest = .manifest t.offset (restOfLine rest) := by
      rw [Token.opensVerbatim, htext, List.drop_one, List.tail_cons, hstring,
        Lexeme.verbatimCloser?_take, Option.isSome_eq_false_iff,
        Option.isNone_iff_eq_none] at hverbatim
      rw [hstring, Lexeme.string, hverbatim]
    rw [hmanifest] at htext hsegments hfault hescapes
    have hcontent : Segment.sources t.segments = t.content := by
      rw [hsegments, Token.content_eq htext hfault]
    have hdecode : t.segments = decode (t.offset + 1) t.content := by
      rw [← hcontent, hsegments, Lexeme.segments_manifest, (segments_content _ _).2]
    refine ⟨hdecode, ?_, ?_, hcontent⟩
    · rw [Token.value, hkind, hdecode]
    · rw [hescapes, Lexeme.issues_manifest, ← Lexeme.segments_manifest, ← hsegments, hdecode]
  · obtain ⟨c, rest, y, rfl, hkind', htext, hsegments, hfault', -⟩ :=
      Source.literal_cases ht (by rcases hkind with h | h <;> simp [h])
    obtain ⟨rfl, hcharacter⟩ := lexeme_of_character (hkind' ▸ hkind)
    rw [hcharacter] at htext hsegments hfault'
    obtain ⟨seg, hseg, ⟨p, hp⟩, htake⟩ := Lexeme.take_character (hfault'.symm.trans hfault)
    have hsources : Segment.sources t.segments = seg.source := by
      rw [hsegments, hseg]
      exact List.append_nil _
    refine ⟨by rw [htext, htake, hsources]; rfl, p, ?_⟩
    have hvalue : t.value = Segment.values t.segments := by
      rcases hkind with h | h <;> rw [Token.value, h]
    rw [hvalue, hsegments, hseg]
    exact (List.append_nil _).trans hp

/-- A string with an escaped quote and a code that only the closing quote ends, and a character. -/
def sampleLiterals : String :=
  "\"a%\"%/6\" '%/65/'"

theorem literals_decode_sample :
    let x := (Source.ofString sampleLiterals "a.e").lex
    (∃ t ∈ x.tokens, t.kind = .string ∧ t.opensVerbatim = false ∧
      let segs := decode (t.offset + 1) t.content
      t.segments = segs ∧ t.value = Segment.values segs ∧
        (x.escapesIn t).map (fun d => (d.location.offset, d.message)) =
          (Segment.issues segs).map (fun i => (i.offset, i.fault.message)) ∧
        Segment.sources t.segments = t.content) ∧
    ∃ t ∈ x.tokens, t.kind = .numericEscape ∧ t.fault = none ∧
      t.text.toList = '\'' :: Segment.sources t.segments ++ ['\''] ∧ ∃ p, t.value = [p] := by
  intro x
  obtain ⟨hstrings, hcharacters⟩ := literals_decode sampleLiterals "a.e"
  have htokens : x.tokens.map (fun t => (t.kind, t.opensVerbatim, t.fault)) =
      [(.string, false, none), (.numericEscape, false, none), (.eof, false, none)] := by cbv
  obtain ⟨t, ht, hstring⟩ := List.mem_map.mp (htokens ▸ List.mem_cons_self)
  obtain ⟨u, hu, hnumeric⟩ :=
    List.mem_map.mp (htokens ▸ List.mem_cons_of_mem _ List.mem_cons_self)
  obtain ⟨hkind, hverbatim, -⟩ := by simpa only [Prod.mk.injEq] using hstring
  obtain ⟨hkind', -, hfault⟩ := by simpa only [Prod.mk.injEq] using hnumeric
  exact ⟨⟨t, ht, hkind, hverbatim, hstrings t ht hkind hverbatim⟩,
    u, hu, hkind', hfault, hcharacters u hu (.inr hkind') hfault⟩

end ContractLint
