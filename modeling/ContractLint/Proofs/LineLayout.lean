/-
# Layout, line by line

Two routines watch the layout of a text.  The scan looks at the indentation wherever it starts a
line, and a later pass over the lines looks at their ends, except where the scan has noted that a
line is the inside or the end of a verbatim string.  The two agree about every line:

* `count_lexeme`: a lexeme notes as many further lines as it has line feeds;
* `line_decided`: one piece of the scan speaks about a line, a token that reaches into it or the
  start of the line itself, and all other pieces are silent about it (`Piece.Silent`);
* `filter_trailingFrom`: the pass over the lines has at most one finding on each;
* `layout_exact`: what both find on a line, read off the line.
-/
import ContractLint.Proofs.Covering
import ContractLint.Proofs.Decoding
import ContractLint.Rule.Layout

namespace ContractLint

/-! ## 1. Further lines of a lexeme -/

namespace Lexeme

/-- The lines of a verbatim string: its content, and the line that closes it if one does. -/
theorem verbatimBody_cases (closer : List Char) (lines : List (List Char)) :
    (verbatimBody closer lines = (lines, none)) ∨
      ∃ content line more n, lines = content ++ line :: more ∧ n ≤ line.length ∧
        verbatimBody closer lines = (content, some n) := by
  induction lines with
  | nil => exact .inl rfl
  | cons line lines ih =>
    rw [verbatimBody]
    dsimp only
    split
    · rename_i hclose
      refine .inr ⟨[], line, lines, _, rfl, ?_, rfl⟩
      have hlength := (List.isPrefixOf_iff_prefix.mp hclose).length_le
      have hmargin := length_run_le isIndent line
      rw [List.length_drop] at hlength
      omega
    · rcases ih with h | ⟨content, closing, more, n, rfl, hn, h⟩
      · exact .inl (by rw [h])
      · exact .inr ⟨line :: content, closing, more, n, rfl, hn, by rw [h]⟩

/-- Each content line of a verbatim string is followed by one line feed. -/
theorem count_content {content : List (List Char)} (h : ∀ line ∈ content, '\n' ∉ line) :
    (content.flatMap fun line => line ++ ['\n']).count '\n' = content.length := by
  induction content with
  | nil => rfl
  | cons line content ih =>
    have hline := List.count_eq_zero.mpr (h line List.mem_cons_self)
    rw [List.flatMap_cons, List.count_append, List.count_append, hline,
      ih fun l hl => h l (List.mem_cons_of_mem line hl), List.length_cons]
    simp only [List.count_singleton_self]
    omega

theorem joinWith_content (content : List (List Char)) (line : List Char)
    (more : List (List Char)) :
    Text.joinWith '\n' (content ++ line :: more) =
      (content.flatMap fun line => line ++ ['\n']) ++ Text.joinWith '\n' (line :: more) := by
  induction content with
  | nil => rfl
  | cons first content ih =>
    rw [List.cons_append, Text.joinWith, ih, List.flatMap_cons, List.append_assoc,
      List.append_assoc]
    · rfl
    · simp

/-- What a verbatim string takes of its body has a line feed behind each content line and no
other. -/
theorem count_body {closer body : List Char} {content : List (List Char)} {n : Nat}
    (h : verbatimBody closer (Text.splitAt '\n' body) = (content, some n)) :
    (body.take ((content.flatMap fun line => line ++ ['\n']).length + n)).count '\n' =
      content.length := by
  rcases verbatimBody_cases closer (Text.splitAt '\n' body) with
    hopen | ⟨lines, line, more, m, hsplit, hm, hclosed⟩
  · rw [hopen] at h
    cases h
  · rw [hclosed] at h
    cases h
    have hnone := notMem_of_mem_splitAt body
    rw [hsplit] at hnone
    have hbody : ∃ tail, body = (content.flatMap fun line => line ++ ['\n']) ++ (line ++ tail) := by
      have hjoin := joinWith_content content line more
      rw [← hsplit, Text.joinWith_splitAt] at hjoin
      cases more with
      | nil => exact ⟨[], by rw [hjoin, List.append_nil]; rfl⟩
      | cons l ls => exact ⟨_, hjoin⟩
    obtain ⟨tail, rfl⟩ := hbody
    rw [List.take_length_add_append, List.take_append_of_le_length hm, List.count_append,
      count_content fun l hl => hnone l (List.mem_append_left _ hl)]
    have hline : '\n' ∉ line.take n := fun hmem =>
      hnone line (List.mem_append_right _ List.mem_cons_self) (List.mem_of_mem_take hmem)
    rw [List.count_eq_zero.mpr hline, Nat.add_zero]

/-- A lexeme of a verbatim string notes as many further lines as it has line feeds. -/
theorem count_verbatim (closer cs : List Char) :
    (cs.take (verbatim closer (restOfLine cs) cs).taken).count '\n' =
      (verbatim closer (restOfLine cs) cs).verbatimLines := by
  rcases line_cases cs with h | ⟨line, body, rfl, hline⟩
  · have hopening : restOfLine cs = cs :=
      List.takeWhile_eq_self_iff.mpr fun c hc => bne_iff_ne.mpr fun heq => h (heq ▸ hc)
    rw [hopening, verbatim, List.drop_length]
    exact List.count_eq_zero.mpr fun hmem => h (List.mem_of_mem_take hmem)
  · have hopening : restOfLine (line ++ '\n' :: body) = line := by
      rw [restOfLine_append]
      exact List.takeWhile_eq_self_iff.mpr fun c hc => bne_iff_ne.mpr fun heq => hline (heq ▸ hc)
    have hzero := List.count_eq_zero.mpr hline
    rw [hopening, verbatim, List.drop_left]
    dsimp only
    cases hbody : verbatimBody closer (Text.splitAt '\n' body) with
    | mk content closing =>
      cases closing with
      | some n =>
        dsimp only
        rw [Nat.add_assoc, Nat.add_assoc, List.take_length_add_append, Nat.add_comm 1,
          List.take_succ_cons, List.count_append, List.count_cons_self, count_body hbody, hzero]
        omega
      | none =>
        dsimp only
        rw [List.take_length, List.count_append, List.count_cons_self, hzero]
        rcases verbatimBody_cases closer (Text.splitAt '\n' body) with
          hopen | ⟨lines, line, more, m, -, -, hclosed⟩
        · rw [hopen] at hbody
          cases hbody
          rw [Text.length_splitAt]
          omega
        · rw [hclosed] at hbody
          cases hbody

/-- A string on one line has no line feed. -/
theorem count_manifest (offset : Int) (cs : List Char) :
    (cs.take (manifest offset (restOfLine cs)).taken).count '\n' = 0 := by
  have htake : cs.take (manifest offset (restOfLine cs)).taken <+: restOfLine cs := by
    refine List.prefix_of_prefix_length_le (List.take_prefix _ _) (List.takeWhile_prefix _) ?_
    rw [List.length_take]
    exact Nat.le_trans (Nat.min_le_left _ _) (manifest_taken_le offset _)
  refine List.count_eq_zero.mpr fun hmem => ?_
  have hline := List.mem_takeWhile_imp (htake.subset hmem)
  exact absurd rfl (bne_iff_ne.mp hline)

theorem count_string (offset : Int) (cs : List Char) :
    (cs.take (string offset cs).taken).count '\n' = (string offset cs).verbatimLines := by
  unfold string
  dsimp only
  split
  · exact count_verbatim _ cs
  · rw [count_manifest]
    unfold manifest
    dsimp only
    split <;> rfl

end Lexeme

/-- What does not open with a quote ends on its line. -/
theorem newline_notMem_of_ne_quote (offset : Int) {c : Char} (hc : c ≠ '"') (cs : List Char) :
    '\n' ∉ cs.take (lexeme offset c cs).taken := by
  intro hmem
  obtain ⟨line, rest, rfl, hline⟩ := List.eq_append_cons_of_mem (List.mem_of_mem_take hmem)
  have hx := lexeme_append offset c (fault_of_ne_quote offset hc line) rest
  rw [hx, List.take_append_of_le_length (lexeme_taken_le offset c line)] at hmem
  exact hline (List.mem_of_mem_take hmem)

theorem verbatimLines_of_ne_quote (offset : Int) {c : Char} (hc : c ≠ '"') (cs : List Char) :
    (lexeme offset c cs).verbatimLines = 0 := by
  unfold lexeme
  split
  · rfl
  split
  · unfold Lexeme.character
    split
    · rfl
    · split <;> rfl
  split
  · rfl
  split
  · rfl
  · unfold Lexeme.operator
    split <;> rfl

/-- **A lexeme notes as many further lines as it has line feeds.** -/
theorem count_lexeme (offset : Int) {c : Char} (hc : c ≠ '\n') (cs : List Char) :
    (c :: cs.take (lexeme offset c cs).taken).count '\n' = (lexeme offset c cs).verbatimLines := by
  rw [List.count_cons_of_ne hc]
  by_cases hquote : c = '"'
  · subst hquote
    exact Lexeme.count_string offset cs
  · rw [List.count_eq_zero.mpr (newline_notMem_of_ne_quote offset hquote cs),
      verbatimLines_of_ne_quote offset hquote cs]

/-! ## 2. Who speaks about a line -/

/-- The piece says nothing about the line `k`: it finds no fault with the indentation there, notes
nothing about the line, and has no token that reaches into it from a line before. -/
structure Piece.SilentOn (k : Int) (p : Piece) : Prop where
  findings : ∀ f ∈ p.findings, f.cause = .spaceIndent → f.location.line ≠ k
  lines : ∀ f ∈ p.lines, f.line ≠ k
  token : ∀ t ∈ p.token, ¬ (t.line < k ∧ k ≤ t.lastLine)

/-- The piece has a token that reaches into the line `k`, and notes that the line is verbatim. -/
structure Piece.ReachesInto (k : Int) (p : Piece) : Prop where
  token : ∃ t, p.token = some t ∧ t.line < k ∧ k ≤ t.lastLine
  findings : ∀ f ∈ p.findings, f.cause ≠ .spaceIndent
  lines : ∃ f ∈ p.lines, f.verbatim = true ∧ f.line = k

namespace Piece

theorem lines_ofIndent (loc : Location) (indent : List Char) (blank : Bool) :
    (ofIndent loc indent blank).lines = [{ line := loc.line, blank := blank }] := by
  unfold ofIndent
  dsimp only
  split <;> rfl

/-- A line start speaks about its own line only. -/
theorem silentOn_ofIndent {loc : Location} {indent : List Char} {k : Int}
    (hindent : ∀ c ∈ indent, isIndent c = true) (hk : k ≠ loc.line) (blank : Bool) :
    (ofIndent loc indent blank).SilentOn k := by
  have hcount {inside : List Char} (h : inside <+: indent) : inside.count '\n' = 0 :=
    List.count_eq_zero.mpr fun hmem => absurd (hindent _ (h.subset hmem)) (by decide)
  refine ⟨fun f hf _ => ?_, fun f hf => ?_, fun t ht => ?_⟩
  · obtain ⟨inside, hinside, hlocation⟩ := findings_ofIndent hf
    rw [hlocation, Location.line_after, hcount hinside]
    omega
  · rw [lines_ofIndent] at hf
    rw [List.mem_singleton.mp hf]
    exact hk.symm
  · rw [token_ofIndent] at ht
    split at ht
    · cases ht
    · cases ht
      rw [← Token.line_after_text, Location.line_after, String.toList_ofList,
        hcount (List.prefix_refl _)]
      simp only [Token.line]
      omega

section Lexeme

variable {loc : Location} {c : Char} {rest : List Char} {k : Int}

/-- A lexeme speaks about the lines that it reaches into, and about no other. -/
theorem silentOn_ofLexeme (hc : c ≠ '\n')
    (hk : k ≤ loc.line ∨
      (loc.after (c :: rest.take (lexeme loc.offset c rest).taken)).line < k) :
    (ofLexeme loc (c :: rest.take (lexeme loc.offset c rest).taken)
      (lexeme loc.offset c rest)).SilentOn k := by
  rw [Location.line_after, count_lexeme loc.offset hc rest] at hk
  refine ⟨fun f hf hcause => ?_, fun f hf => ?_, fun t ht => ?_⟩
  · obtain ⟨issue, -, rfl⟩ := List.mem_map.mp hf
    cases hcause
  · obtain ⟨n, hn, rfl⟩ := List.mem_map.mp hf
    have hn := List.mem_range.mp hn
    dsimp only
    omega
  · cases ht
    rw [← Token.line_after_text, Location.line_after, String.toList_ofList,
      count_lexeme loc.offset hc rest]
    simp only [Token.line]
    omega

theorem reachesInto_ofLexeme (hc : c ≠ '\n') (hfirst : loc.line < k)
    (hlast : k ≤ (loc.after (c :: rest.take (lexeme loc.offset c rest).taken)).line) :
    (ofLexeme loc (c :: rest.take (lexeme loc.offset c rest).taken)
      (lexeme loc.offset c rest)).ReachesInto k := by
  rw [Location.line_after, count_lexeme loc.offset hc rest] at hlast
  refine ⟨⟨_, rfl, hfirst, ?_⟩, fun f hf hcause => ?_, ?_⟩
  · rw [← Token.line_after_text, Location.line_after, String.toList_ofList,
      count_lexeme loc.offset hc rest]
    exact hlast
  · obtain ⟨issue, -, rfl⟩ := List.mem_map.mp hf
    cases hcause
  · refine ⟨⟨k, true, false⟩, List.mem_map.mpr ⟨(k - loc.line - 1).toNat, ?_, ?_⟩, rfl, rfl⟩
    · exact List.mem_range.mpr (by omega)
    · rw [LineFact.mk.injEq]
      exact ⟨by omega, rfl, rfl⟩

end Lexeme

end Piece

/-- A scan says nothing about the lines before it, nor about the one on which it starts, unless that
line starts there. -/
theorem silentOn_of_mem_pieces {fresh : Bool} {loc : Location} {cs : List Char} {k : Int} :
    k ≤ loc.line → (fresh = true → k ≠ loc.line) →
      ∀ p ∈ pieces fresh loc cs, p.SilentOn k := by
  fun_induction pieces fresh loc cs with
  | case1 => exact fun _ _ p hp => absurd hp List.not_mem_nil
  | case2 loc c rest indent after blank ih =>
    intro hk hfresh p hp
    have hline := loc.line_le_line_after indent
    rcases List.mem_cons.mp hp with rfl | hp
    · exact Piece.silentOn_ofIndent (fun d hd => List.mem_takeWhile_imp hd) (hfresh rfl) blank
    · exact ih (by omega) (fun h => absurd h Bool.false_ne_true) p hp
  | case3 loc rest ih =>
    intro hk _
    have hline : (loc.next '\n').line = loc.line + 1 := rfl
    exact ih (by omega) fun _ => by omega
  | case4 loc c rest hc hskip ih =>
    intro hk _
    have hline : loc.line ≤ (loc.next c).line := loc.line_le_line_after [c]
    exact ih (by omega) fun h => absurd h Bool.false_ne_true
  | case5 loc c rest hc hskip x text ih =>
    intro hk _ p hp
    have hline := loc.line_le_line_after text
    rcases List.mem_cons.mp hp with rfl | hp
    · exact Piece.silentOn_ofLexeme hc (.inl hk)
    · exact ih (by omega) (fun h => absurd h Bool.false_ne_true) p hp

/-- `Decided loc back ps`: of the pieces `ps` only one speaks about the line at `loc`, on which
`back` starts: a piece whose token reaches into the line, or the start of the line. -/
inductive Decided (loc : Location) (back : List Char) : List Piece → Prop
  | inside (before : List Piece) (p : Piece) (after : List Piece)
      (hbefore : ∀ q ∈ before, q.SilentOn loc.line) (hp : p.ReachesInto loc.line)
      (hafter : ∀ q ∈ after, q.SilentOn loc.line) : Decided loc back (before ++ p :: after)
  | start (before : List Piece) (hbefore : ∀ q ∈ before, q.SilentOn loc.line) :
      Decided loc back (before ++ pieces true loc back)

theorem Decided.cons {loc : Location} {back : List Char} {p : Piece} {ps : List Piece}
    (hp : p.SilentOn loc.line) (h : Decided loc back ps) : Decided loc back (p :: ps) := by
  cases h with
  | inside before q after hbefore hq hafter =>
    exact .inside (p :: before) q after (List.forall_mem_cons.mpr ⟨hp, hbefore⟩) hq hafter
  | start before hbefore => exact .start (p :: before) (List.forall_mem_cons.mpr ⟨hp, hbefore⟩)

/-- An element that follows `front` in `xs ++ ys` stands in `ys` or in `xs`. -/
theorem append_eq_append_cons {xs ys front back : List Char} {c : Char}
    (h : xs ++ ys = front ++ c :: back) :
    (∃ behind, front = xs ++ behind ∧ ys = behind ++ c :: back) ∨
      ∃ inside, xs = front ++ c :: inside ∧ back = inside ++ ys := by
  rcases List.append_eq_append_iff.mp h with ⟨behind, hfront, hys⟩ | ⟨inside, hxs, hback⟩
  · exact .inl ⟨behind, hfront, hys⟩
  · cases inside with
    | nil => exact .inl ⟨[], by simpa using hxs.symm, hback.symm⟩
    | cons d inside =>
      obtain ⟨rfl, htail⟩ := List.cons.inj hback
      exact .inr ⟨inside, hxs, htail⟩

/-- **One piece of a scan speaks about a line.**  The line feed before the line is inside a token,
which then reaches into the line, or it stands between tokens and the scan starts the line. -/
theorem line_decided (fresh : Bool) (loc : Location) (cs : List Char) :
    ∀ front back, cs = front ++ '\n' :: back →
      Decided (loc.after (front ++ ['\n'])) back (pieces fresh loc cs) := by
  fun_induction pieces fresh loc cs with
  | case1 => exact fun front back h => absurd h (by simp)
  | case2 loc c rest indent after blank ih =>
    intro front back h
    have hindent : ∀ d ∈ indent, isIndent d = true := fun d hd => List.mem_takeWhile_imp hd
    have hsplit : indent ++ after = c :: rest :=
      List.prefix_iff_eq_append.mp (List.takeWhile_prefix isIndent)
    rcases append_eq_append_cons (hsplit.trans h) with ⟨behind, rfl, hafter⟩ | ⟨inside, hmem, -⟩
    · rw [List.append_assoc, Location.after_append]
      refine (ih behind back hafter).cons (Piece.silentOn_ofIndent hindent ?_ blank)
      rw [Location.line_after, Location.line_after, List.count_append, List.count_singleton_self]
      omega
    · have hnewline := hindent '\n' (hmem ▸ by simp)
      exact absurd hnewline (by decide)
  | case3 loc rest ih =>
    intro front back h
    cases front with
    | nil =>
      obtain rfl : rest = back := by simpa using h
      exact .start [] fun q hq => absurd hq List.not_mem_nil
    | cons d front =>
      obtain ⟨rfl, hrest⟩ := List.cons.inj h
      exact ih front back hrest
  | case4 loc c rest hc hskip ih =>
    intro front back h
    cases front with
    | nil => exact absurd (List.cons.inj h).1 hc
    | cons d front =>
      obtain ⟨rfl, hrest⟩ := List.cons.inj h
      exact ih front back hrest
  | case5 loc c rest hc hskip x text ih =>
    intro front back h
    have hsplit : text ++ rest.drop x.taken = c :: rest := by
      rw [List.cons_append, List.take_append_drop]
    rcases append_eq_append_cons (hsplit.trans h) with ⟨behind, rfl, hrest⟩ | ⟨inside, htext, -⟩
    · rw [List.append_assoc, Location.after_append]
      refine (ih behind back hrest).cons (Piece.silentOn_ofLexeme hc (.inr ?_))
      rw [Location.line_after (loc.after text), List.count_append, List.count_singleton_self]
      exact Int.lt_add_of_pos_right _ (by omega)
    · -- what follows the token starts on its last line, so it says nothing about lines up to there
      have hlast : (loc.after (front ++ ['\n'])).line ≤ (loc.after text).line := by
        have hstarts : text = (front ++ ['\n']) ++ inside := by rw [htext, List.append_cons]
        rw [hstarts, Location.after_append _ _ inside]
        exact Location.line_le_line_after _ _
      refine .inside [] _ _ (fun q hq => absurd hq List.not_mem_nil)
        (Piece.reachesInto_ofLexeme hc ?_ hlast)
        (silentOn_of_mem_pieces hlast fun hfresh => absurd hfresh Bool.false_ne_true)
      rw [Location.line_after, List.count_append, List.count_singleton_self]
      omega

/-! ## 3. What is known about a line -/

/-- Whether a finding is about the indentation of the line `k`. -/
def Finding.isIndentOf (k : Int) (f : Finding) : Bool :=
  f.cause == .spaceIndent && f.location.line == k

section Silent

variable {k : Int} {ps : List Piece} (h : ∀ p ∈ ps, p.SilentOn k)
include h

theorem findings_of_silentOn : (ps.flatMap Piece.findings).filter (Finding.isIndentOf k) = [] := by
  refine List.filter_eq_nil_iff.mpr fun f hf hindent => ?_
  obtain ⟨p, hp, hf⟩ := List.mem_flatMap.mp hf
  obtain ⟨hcause, hline⟩ := (Bool.and_eq_true_iff).mp hindent
  exact (h p hp).findings f hf (beq_iff_eq.mp hcause) (beq_iff_eq.mp hline)

theorem lines_of_silentOn : ∀ f ∈ ps.flatMap Piece.lines, f.line ≠ k := by
  intro f hf
  obtain ⟨p, hp, hf⟩ := List.mem_flatMap.mp hf
  exact (h p hp).lines f hf

theorem tokens_of_silentOn : ∀ t ∈ ps.filterMap Piece.token, ¬ (t.line < k ∧ k ≤ t.lastLine) := by
  intro t ht
  obtain ⟨p, hp, ht⟩ := List.mem_filterMap.mp ht
  exact (h p hp).token t ht

end Silent

/-- Between pieces that are silent about a line, one piece speaks for all. -/
theorem speaks_alone {k : Int} {before after : List Piece} (p : Piece)
    (hbefore : ∀ q ∈ before, q.SilentOn k) (hafter : ∀ q ∈ after, q.SilentOn k) :
    ((∃ t ∈ (before ++ p :: after).filterMap Piece.token, t.line < k ∧ k ≤ t.lastLine) ↔
      ∃ t, p.token = some t ∧ t.line < k ∧ k ≤ t.lastLine) ∧
    ((before ++ p :: after).flatMap Piece.findings).filter (Finding.isIndentOf k) =
      p.findings.filter (Finding.isIndentOf k) ∧
    ∀ f : LineFact, f.line = k → (f ∈ (before ++ p :: after).flatMap Piece.lines ↔ f ∈ p.lines) := by
  refine ⟨⟨?_, ?_⟩, ?_, fun f hf => ⟨?_, ?_⟩⟩
  · rintro ⟨t, ht, hreach⟩
    obtain ⟨q, hq, hqt⟩ := List.mem_filterMap.mp ht
    rcases List.mem_append.mp hq with hq | hq
    · exact absurd hreach ((hbefore q hq).token t hqt)
    rcases List.mem_cons.mp hq with rfl | hq
    · exact ⟨t, hqt, hreach⟩
    · exact absurd hreach ((hafter q hq).token t hqt)
  · rintro ⟨t, ht, hreach⟩
    exact ⟨t, List.mem_filterMap.mpr ⟨p, by simp, ht⟩, hreach⟩
  · rw [List.flatMap_append, List.flatMap_cons, List.filter_append, List.filter_append,
      findings_of_silentOn hbefore, findings_of_silentOn hafter, List.append_nil, List.nil_append]
  · intro hmem
    obtain ⟨q, hq, hqf⟩ := List.mem_flatMap.mp hmem
    rcases List.mem_append.mp hq with hq | hq
    · exact absurd hf ((hbefore q hq).lines f hqf)
    rcases List.mem_cons.mp hq with rfl | hq
    · exact hqf
    · exact absurd hf ((hafter q hq).lines f hqf)
  · exact fun hmem => List.mem_flatMap.mpr ⟨p, by simp, hmem⟩

/-- The indentation of a line, and whether nothing else is on it, as the scan sees it. -/
def indentPiece (loc : Location) (cs : List Char) : Piece :=
  .ofIndent loc (cs.takeWhile isIndent)
    ((cs.drop (cs.takeWhile isIndent).length).head?.getD '\n' == '\n')

/-- Behind the start of a line the scan has nothing more to say about the line. -/
theorem pieces_line_start (loc : Location) (c : Char) (rest : List Char) :
    ∃ after, pieces true loc (c :: rest) = indentPiece loc (c :: rest) :: after ∧
      ∀ q ∈ after, q.SilentOn loc.line := by
  rw [pieces]
  exact ⟨_, rfl, silentOn_of_mem_pieces (loc.line_le_line_after _) fun h =>
    absurd h Bool.false_ne_true⟩

/-- A line start leaves no token that reaches into its line from before. -/
theorem line_indentPiece {loc : Location} {cs : List Char} {t : Token}
    (ht : (indentPiece loc cs).token = some t) : t.line = loc.line := by
  rw [indentPiece, Piece.token_ofIndent] at ht
  split at ht
  · cases ht
  · cases ht
    rfl

/-- All that a line start finds is about the indentation of its line. -/
theorem filter_findings_indentPiece (loc : Location) (cs : List Char) :
    (indentPiece loc cs).findings.filter (Finding.isIndentOf loc.line) =
      (indentPiece loc cs).findings := by
  refine List.filter_eq_self.mpr fun f hf => ?_
  obtain ⟨inside, hinside, hlocation⟩ := Piece.findings_ofIndent hf
  have hcount : inside.count '\n' = 0 := List.count_eq_zero.mpr fun hmem =>
    absurd (List.mem_takeWhile_imp (hinside.subset hmem)) (by decide)
  have hcause : f.cause = .spaceIndent := by
    unfold indentPiece Piece.ofIndent at hf
    dsimp only at hf
    split at hf
    · cases hf
    · dsimp only at hf
      split at hf
      · rw [List.mem_singleton.mp hf]
      · cases hf
  rw [Finding.isIndentOf, hcause, hlocation, Location.line_after, hcount]
  simp

/-- **What a scan knows about a line.**  A token reaches into it, and then the line is noted as
verbatim and nothing is found at its start; or none does, and then what is noted and found is what
the start of the line shows. -/
theorem Decided.view {loc : Location} {back : List Char} {ps : List Piece}
    (h : Decided loc back ps) :
    ((∃ t ∈ ps.filterMap Piece.token, t.line < loc.line ∧ loc.line ≤ t.lastLine) ∧
      (ps.flatMap Piece.findings).filter (Finding.isIndentOf loc.line) = [] ∧
      ∃ f ∈ ps.flatMap Piece.lines, f.verbatim = true ∧ f.line = loc.line) ∨
    ((¬ ∃ t ∈ ps.filterMap Piece.token, t.line < loc.line ∧ loc.line ≤ t.lastLine) ∧
      (ps.flatMap Piece.findings).filter (Finding.isIndentOf loc.line) =
        (indentPiece loc back).findings ∧
      ∀ f : LineFact, f.line = loc.line →
        (f ∈ ps.flatMap Piece.lines ↔ back ≠ [] ∧ f ∈ (indentPiece loc back).lines)) := by
  cases h with
  | inside before p after hbefore hp hafter =>
    obtain ⟨htokens, hfindings, hlines⟩ := speaks_alone p hbefore hafter
    obtain ⟨f, hf, hverbatim, hline⟩ := hp.lines
    refine .inl ⟨htokens.mpr hp.token, hfindings.trans ?_, f, (hlines f hline).mpr hf, hverbatim,
      hline⟩
    refine List.filter_eq_nil_iff.mpr fun f hf hindent => ?_
    exact hp.findings f hf (beq_iff_eq.mp (Bool.and_eq_true_iff.mp hindent).1)
  | start before hbefore =>
    right
    cases back with
    | nil =>
      rw [pieces, List.append_nil]
      refine ⟨?_, findings_of_silentOn hbefore, fun f hline => ?_⟩
      · rintro ⟨t, ht, hreach⟩
        exact tokens_of_silentOn hbefore t ht hreach
      · exact iff_of_false (fun hf => lines_of_silentOn hbefore f hf hline) fun h => h.1 rfl
    | cons c rest =>
      obtain ⟨after, hpieces, hafter⟩ := pieces_line_start loc c rest
      obtain ⟨htokens, hfindings, hlines⟩ :=
        speaks_alone (indentPiece loc (c :: rest)) hbefore hafter
      rw [hpieces]
      refine ⟨fun hreach => ?_, ?_, fun f hline => ?_⟩
      · obtain ⟨t, ht, hline, -⟩ := htokens.mp hreach
        exact absurd (line_indentPiece ht) (by omega)
      · rw [hfindings, filter_findings_indentPiece]
      · rw [hlines f hline]
        exact (and_iff_right (List.cons_ne_nil c rest)).symm

/-! ## 4. The lines of a source -/

/-- The starts of some lines do not depend on the lines that follow. -/
theorem startsFrom_getElem?_append {i : Nat} : ∀ {ps : List (List Char)} (qs : List (List Char))
    (offset : Nat), i < ps.length →
      (Source.startsFrom offset (ps ++ qs))[i]? = (Source.startsFrom offset ps)[i]? := by
  induction i with
  | zero =>
    intro ps qs offset h
    cases ps with
    | nil => cases h
    | cons p ps => rfl
  | succ i ih =>
    intro ps qs offset h
    cases ps with
    | nil => cases h
    | cons p ps => exact ih qs _ (Nat.lt_of_succ_lt_succ h)

theorem Source.lines_prefix (s : Source) : s.lines <+: s.pieces := by
  rw [lines_eq]
  split
  · exact List.dropLast_prefix _
  · exact List.prefix_refl _

/-- The line with the index `i` of a source, and where it starts. -/
theorem Source.exists_isLine {s : Source} {i : Nat} {line : List Char}
    (h : s.lines[i]? = some line) :
    ∃ front back, IsLine s.text front line back ∧ front.count '\n' = i ∧
      (startsFrom 0 s.lines)[i]? = some front.length ∧
      s.lineStart? ((i + 1 : Nat) : Int) = some front.length ∧
      s.lineText ((i + 1 : Nat) : Int) = line := by
  obtain ⟨more, hmore⟩ := s.lines_prefix
  obtain ⟨hi, -⟩ := List.getElem?_eq_some_iff.mp h
  have hpiece : s.pieces[i]? = some line := by rw [← hmore, List.getElem?_append_left hi, h]
  obtain ⟨front, back, hline, hnumber, hstart, htext⟩ := exists_isLine_of_piece hpiece
  refine ⟨front, back, hline, hnumber, ?_, hstart, htext⟩
  have hindex : (((i + 1 : Nat) : Int) - 1).toNat = i := by omega
  rw [lineStart?, if_neg (by omega), if_neg (by omega), hindex, lineStarts_eq, ← hmore,
    startsFrom_getElem?_append more 0 hi] at hstart
  exact hstart

namespace IsLine

variable {s : Source} {front line back : List Char} (h : IsLine s.text front line back)
include h

/-- The location of a character of the line. -/
theorem location {k : Nat} (hk : k ≤ line.length) :
    s.location ((front.length + k : Nat) : Int) = Location.start.after (front ++ line.take k) := by
  rw [Source.location_eq, Int.toNat_natCast, h.text_eq, List.take_length_add_append,
    List.take_append_of_le_length hk]

/-- All of the line is on the line with its number. -/
theorem line_location {k : Nat} (hk : k ≤ line.length) :
    (s.location ((front.length + k : Nat) : Int)).line = ((front.count '\n' + 1 : Nat) : Int) := by
  have hzero : (line.take k).count '\n' = 0 :=
    List.count_eq_zero.mpr fun hmem => h.inside (List.mem_of_mem_take hmem)
  rw [h.location hk, Location.line_after, List.count_append, hzero]
  simp only [Location.start]
  omega

end IsLine

/-! ## 5. The ends of lines -/

namespace Layout

/-- The texts stand in the source from the line `n` and the offset `start` on. -/
def Placed (s : Source) (n start : Nat) (texts : List (List Char)) : Prop :=
  ∀ i text offset, texts[i]? = some text → (Source.startsFrom start texts)[i]? = some offset →
    ∀ k ≤ text.length, (s.location ((offset + k : Nat) : Int)).line = ((n + i : Nat) : Int)

theorem Placed.tail {s : Source} {n start : Nat} {text : List Char} {texts : List (List Char)}
    (h : Placed s n start (text :: texts)) : Placed s (n + 1) (start + text.length + 1) texts := by
  intro i t offset ht hoffset k hk
  rw [h (i + 1) t offset ht hoffset k hk]
  omega

variable {x : Subject}

/-- The finding about the end of a line is on the line. -/
theorem line_trailing? {n start : Nat} {text : List Char} {texts : List (List Char)}
    (h : Placed x.lexed.source n start (text :: texts)) :
    ∀ d ∈ trailing? x n start text, d.location.line = n := by
  intro d hd
  unfold trailing? at hd
  dsimp only at hd
  split at hd
  · cases hd
  · cases hd
    exact h 0 text start rfl rfl _ (List.rdropWhile_prefix isIndent text).length_le

theorem line_of_mem_trailingFrom : ∀ {texts : List (List Char)} {n start : Nat},
    Placed x.lexed.source n start texts → ∀ d ∈ trailingFrom x n start texts,
      (n : Int) ≤ d.location.line ∧ d.location.line < ((n + texts.length : Nat) : Int)
  | [], _, _, _ => fun d hd => absurd hd List.not_mem_nil
  | text :: texts, n, start, h => by
    intro d hd
    rw [List.length_cons]
    rcases List.mem_append.mp hd with hd | hd
    · rw [line_trailing? h d (Option.mem_toList.mp hd)]
      omega
    · have hbounds := line_of_mem_trailingFrom h.tail d hd
      omega

/-- **The pass over the lines finds on a line what it finds about the end of that line.** -/
theorem filter_trailingFrom : ∀ {texts : List (List Char)} {n start i : Nat} {text : List Char}
    {offset : Nat}, Placed x.lexed.source n start texts → texts[i]? = some text →
      (Source.startsFrom start texts)[i]? = some offset →
        (trailingFrom x n start texts).filter (·.location.line == ((n + i : Nat) : Int)) =
          (trailing? x (n + i) offset text).toList
  | [], _, _, _, _, _, _, h, _ => by cases h
  | text :: texts, n, start, 0, _, _, h, htext, hoffset => by
    obtain rfl := Option.some.inj htext
    obtain rfl := Option.some.inj hoffset
    have hhead : (trailing? x n start text).toList.filter (·.location.line == (n : Int)) =
        (trailing? x n start text).toList :=
      List.filter_eq_self.mpr fun d hd =>
        beq_iff_eq.mpr (line_trailing? h d (Option.mem_toList.mp hd))
    have htail : (trailingFrom x (n + 1) (start + text.length + 1) texts).filter
        (·.location.line == (n : Int)) = [] :=
      List.filter_eq_nil_iff.mpr fun d hd hline => by
        have hbounds := line_of_mem_trailingFrom h.tail d hd
        have hline := beq_iff_eq.mp hline
        omega
    rw [Nat.add_zero, trailingFrom, List.filter_append, hhead, htail, List.append_nil]
  | text :: texts, n, start, i + 1, line, offset, h, htext, hoffset => by
    have hhead : (trailing? x n start text).toList.filter
        (·.location.line == ((n + (i + 1) : Nat) : Int)) = [] :=
      List.filter_eq_nil_iff.mpr fun d hd hline => by
        have hn := line_trailing? h d (Option.mem_toList.mp hd)
        have hline := beq_iff_eq.mp hline
        omega
    have htail := filter_trailingFrom h.tail htext hoffset
    rw [Nat.add_assoc n 1 i, Nat.add_comm 1 i] at htail
    rw [trailingFrom, List.filter_append, hhead, List.nil_append, htail]

end Layout

theorem Source.placed_lines (s : Source) : Layout.Placed s 1 0 s.lines := by
  intro i line offset hline hoffset k hk
  obtain ⟨front, back, hisLine, hnumber, hstart, -⟩ := exists_isLine hline
  rw [hstart] at hoffset
  obtain rfl := Option.some.inj hoffset
  rw [hisLine.line_location hk, hnumber, Nat.add_comm]

/-! ## 6. Layout findings -/

namespace IsLine

variable {s : Source} {front line back : List Char} (h : IsLine s.text front line back)
include h

/-- Who speaks about a line of a source. -/
theorem decided : Decided (Location.start.after front) (line ++ back) s.pieceList := by
  rw [Source.pieceList, h.text_eq]
  rcases h.starts with rfl | ⟨before, rfl⟩
  · exact .start [] fun q hq => absurd hq List.not_mem_nil
  · exact line_decided true Location.start _ before (line ++ back) (by simp)

theorem takeWhile_line : (line ++ back).takeWhile isIndent = line.takeWhile isIndent := by
  rcases h.ends with rfl | ⟨rest, rfl⟩
  · rw [List.append_nil]
  · exact takeWhile_append_stop rfl line rest

/-- Nothing but its indentation is on a line if the indentation is all of it. -/
theorem blank_line :
    (((line ++ back).drop (line.takeWhile isIndent).length).head?.getD '\n' == '\n') =
      decide (line.takeWhile isIndent = line) := by
  have hsplit : line.takeWhile isIndent ++ line.dropWhile isIndent = line :=
    List.takeWhile_append_dropWhile
  rw [drop_run_append, drop_run]
  cases hrest : line.dropWhile isIndent with
  | nil =>
    rw [hrest, List.append_nil] at hsplit
    rw [List.nil_append, decide_eq_true hsplit]
    rcases h.ends with rfl | ⟨rest, rfl⟩ <;> rfl
  | cons d rest =>
    have hd : d ∈ line := hsplit ▸ hrest ▸ List.mem_append_right _ List.mem_cons_self
    have hne : d ≠ '\n' := fun heq => h.inside (heq ▸ hd)
    have hlonger : line.takeWhile isIndent ≠ line := fun heq => by
      rw [heq, hrest] at hsplit
      simp at hsplit
    rw [decide_eq_false hlonger]
    exact beq_eq_false_iff_ne.mpr hne

/-- The first space of the indentation is the first space of the line. -/
theorem location_first_space (hspace : ' ' ∈ line.takeWhile isIndent) :
    (Location.start.after front).after ((line.takeWhile isIndent).takeWhile (· != ' ')) =
      s.location ((front.length + line.idxOf ' ' : Nat) : Int) := by
  have hrun : (line.takeWhile isIndent).takeWhile (· != ' ') = line.take (line.idxOf ' ') := by
    obtain ⟨rest, hsplit⟩ := List.takeWhile_prefix isIndent (l := line)
    generalize line.takeWhile isIndent = indent at hspace hsplit
    rw [← hsplit, List.idxOf_append_of_mem hspace,
      List.take_append_of_le_length List.idxOf_le_length, List.takeWhile_eq_take_findIdx_not]
    have hbeq : (fun c : Char => !(c != ' ')) = (· == ' ') := funext fun c => Bool.not_not _
    rw [hbeq]
    rfl
  rw [h.location (List.idxOf_le_length), hrun, Location.after_append]

/-- What the scan finds at the start of a line. -/
theorem findings_indentPiece :
    (indentPiece (Location.start.after front) (line ++ back)).findings =
      if ' ' ∈ line.takeWhile isIndent ∧ line.takeWhile isIndent ≠ line then
        [⟨.spaceIndent, s.location ((front.length + line.idxOf ' ' : Nat) : Int)⟩]
      else [] := by
  rw [indentPiece, h.takeWhile_line, h.blank_line, Piece.findings_ofIndent_eq]
  simp only [decide_eq_false_iff_not]
  split
  · rename_i hcond
    rw [h.location_first_space hcond.1]
  · rfl

end IsLine

namespace Layout

/-- The findings about the indentation of a line are those of the scan. -/
theorem filter_indents (x : Lexed) (k : Int) :
    (x.diagnostics.filter (·.rule == .tabExpected)).filter (·.location.line == k) =
      (x.findings.filter (Finding.isIndentOf k)).map (Finding.diagnostic x.source.path) := by
  rw [Lexed.diagnostics, List.filter_filter, List.filter_map]
  refine congrArg (List.map _) (List.filter_congr fun f _ => ?_)
  obtain ⟨cause, location⟩ := f
  cases cause with
  | spaceIndent => simp [Finding.diagnostic, Finding.isIndentOf]
  | escape fault inComment => exact (Bool.and_false _).trans (Bool.false_and _).symm

end Layout

/-- The finding about the end of a line that is not verbatim. -/
theorem Layout.trailing?_eq {x : Subject} {n : Nat} (h : isVerbatim x n = false) (start : Nat)
    (line : List Char) :
    trailing? x n start line =
      if line.rtakeWhile isIndent ≠ [] then
        some (x.report Rulebook.trailingWhitespace
          (if isBlankLine x n then "whitespace-only line" else "trailing whitespace")
          (x.lexed.source.location
            ((start + (line.length - (line.rtakeWhile isIndent).length) : Nat) : Int))
          (some "remove trailing whitespace"))
      else none := by
  have hsplit : line.rdropWhile isIndent ++ line.rtakeWhile isIndent = line :=
    List.rdropWhile_append_rtakeWhile
  have hlength := congrArg List.length hsplit
  rw [List.length_append] at hlength
  have hkept : (Text.dropEndWhile isIndent line).length =
      line.length - (line.rtakeWhile isIndent).length :=
    Nat.eq_sub_of_add_eq hlength
  unfold trailing?
  dsimp only
  rw [h, hkept, Bool.false_or]
  by_cases hfinal : line.rtakeWhile isIndent = []
  · rw [if_neg (not_not_intro hfinal), hfinal]
    exact if_pos (beq_self_eq_true _)
  · have hpos := List.length_pos_of_ne_nil hfinal
    rw [if_pos hfinal, if_neg]
    rw [beq_iff_eq]
    omega

/-- The token at the end of a text reaches into no line. -/
theorem reaches_iff {s : Source} {k : Int} :
    (∃ t ∈ s.lex.tokens, t.line < k ∧ k ≤ t.lastLine) ↔
      ∃ t ∈ s.pieceList.filterMap Piece.token, t.line < k ∧ k ≤ t.lastLine := by
  constructor
  · rintro ⟨t, ht, hreach⟩
    rcases List.mem_append.mp ht with hmem | hmem
    · exact ⟨t, hmem, hreach⟩
    · have hlast : t.lastLine = t.line := by
        rw [List.mem_singleton.mp hmem, ← Token.line_after_text]
        rfl
      omega
  · rintro ⟨t, ht, hreach⟩
    exact ⟨t, List.mem_append_left _ ht, hreach⟩

/-- A character of the text is on one of its lines. -/
theorem Source.line_le_lineCount (s : Source) {before rest : List Char}
    (h : s.text = before ++ rest) (hrest : rest ≠ []) : before.count '\n' + 1 ≤ s.lineCount := by
  have hpieces : s.pieces.length = before.count '\n' + rest.count '\n' + 1 := by
    rw [pieces, Text.length_splitAt, h, List.count_append]
  rw [lineCount_eq]
  split
  · rename_i hlast
    rw [h, List.getLast?_append_of_ne_nil _ hrest] at hlast
    have hpos := List.count_pos_iff.mpr (List.mem_of_getLast? hlast)
    omega
  · omega

/-- What a finding of the layout rules is on: a line of the text. -/
theorem Layout.line_of_mem_check {s : Source} {tree : Tree} :
    ∀ d ∈ check ⟨s.lex, tree⟩, 1 ≤ d.location.line ∧ d.location.line ≤ s.lineCount := by
  intro d hd
  rcases List.mem_append.mp hd with hd | hd
  · obtain ⟨f, hf, rfl⟩ := List.mem_map.mp (List.mem_filter.mp hd).1
    obtain ⟨p, hp, hpf⟩ := List.mem_flatMap.mp hf
    obtain ⟨before, rest, htext, hlocation⟩ := s.marks_finding hf
    obtain ⟨t, ht, hcovers⟩ := (scanned_of_mem_pieces p hp).covers f hpf
    have hend := endOffset_le_length (List.mem_filterMap.mpr ⟨p, hp, ht⟩)
    have hrest : rest ≠ [] := by
      rintro rfl
      rw [hlocation, Token.Covers, Location.offset_start_after] at hcovers
      rw [Source.length, htext, List.append_nil] at hend
      omega
    have hcount := s.line_le_lineCount htext hrest
    rw [Finding.location_diagnostic, hlocation, Location.line_after]
    simp only [Location.start]
    omega
  · have hbounds := line_of_mem_trailingFrom s.placed_lines d hd
    have hlines := s.length_lines
    change 1 ≤ d.location.line ∧ d.location.line < ((1 + s.lines.length : Nat) : Int) at hbounds
    omega

/-- The findings on a line: those of the scan about its indentation, and the one about its end. -/
theorem Layout.filter_check {s : Source} (tree : Tree) {i offset : Nat} {line : List Char}
    (hline : s.lines[i]? = some line) (hoffset : (Source.startsFrom 0 s.lines)[i]? = some offset) :
    (check ⟨s.lex, tree⟩).filter (·.location.line == ((1 + i : Nat) : Int)) =
      (s.lex.findings.filter (Finding.isIndentOf ((1 + i : Nat) : Int))).map
          (Finding.diagnostic s.path) ++
        (trailing? ⟨s.lex, tree⟩ (1 + i) offset line).toList := by
  have hindents := filter_indents s.lex ((1 + i : Nat) : Int)
  have htrailing := filter_trailingFrom (x := ⟨s.lex, tree⟩) s.placed_lines hline hoffset
  rw [check, List.filter_append]
  exact congr (congrArg _ hindents) htrailing

/-- What is noted about a line into which no token reaches. -/
theorem Layout.noted_eq {x : Subject} {n : Nat} {piece : Prop} {blank : Bool}
    (h : ∀ f : LineFact, f.line = n →
      (f ∈ x.lexed.lines ↔ piece ∧ f ∈ [({ line := n, blank := blank } : LineFact)])) :
    isVerbatim x n = false ∧ (piece → isBlankLine x n = blank) := by
  constructor
  · refine List.any_eq_false.mpr fun f hf hnoted => ?_
    obtain ⟨hverbatim, hnumber⟩ := Bool.and_eq_true_iff.mp hnoted
    have hmem := ((h f (beq_iff_eq.mp hnumber)).mp hf).2
    rw [List.mem_singleton.mp hmem] at hverbatim
    cases hverbatim
  · intro hpiece
    cases blank with
    | true =>
      refine List.any_eq_true.mpr ⟨_, (h _ rfl).mpr ⟨hpiece, List.mem_singleton_self _⟩, ?_⟩
      exact beq_self_eq_true _
    | false =>
      refine List.any_eq_false.mpr fun f hf hnoted => ?_
      obtain ⟨hblank, hnumber⟩ := Bool.and_eq_true_iff.mp hnoted
      have hmem := ((h f (beq_iff_eq.mp hnumber)).mp hf).2
      rw [List.mem_singleton.mp hmem] at hblank
      cases hblank

/-- **Layout findings are exact, line by line.**  Every finding is on a line of the text.  On a line
into which a token reaches from a line before there is none.  On any other line there is one about
its indentation, at the first space, if its leading run of spaces and tabs holds a space and is not
all of it, and one about its end, where its final run of spaces and tabs starts, if there is such a
run. -/
theorem layout_exact (raw path : String) (tree : Tree) :
    let s := Source.ofString raw path
    let found := Layout.check ⟨s.lex, tree⟩
    (∀ d ∈ found, 1 ≤ d.location.line ∧ d.location.line ≤ s.lineCount) ∧
    ∀ n : Nat, 1 ≤ n → n ≤ s.lineCount → ∃ start : Nat, s.lineStart? n = some start ∧
      let line := s.lineText n
      let leading := line.takeWhile isIndent
      let final := line.rtakeWhile isIndent
      let isInside := ∃ t ∈ s.lex.tokens, t.line < n ∧ n ≤ t.lastLine
      (isInside → found.filter (·.location.line == (n : Int)) = []) ∧
      (¬ isInside → (found.filter (·.location.line == (n : Int))).map
          (fun d => (d.rule, d.location, d.message)) =
        (if ' ' ∈ leading ∧ leading ≠ line then
          [(.tabExpected, s.location (start + line.idxOf ' ' : Nat),
            "indentation contains space characters; use tabs")]
        else []) ++
        if final ≠ [] then
          [(.trailingWhitespace, s.location (start + (line.length - final.length) : Nat),
            if leading = line then "whitespace-only line" else "trailing whitespace")]
        else []) := by
  intro s found
  refine ⟨Layout.line_of_mem_check, fun n hn hcount => ?_⟩
  obtain ⟨i, rfl⟩ : ∃ i, n = 1 + i := ⟨n - 1, by omega⟩
  obtain ⟨line, hline⟩ : ∃ line, s.lines[i]? = some line :=
    ⟨_, List.getElem?_eq_getElem (by rw [Source.length_lines]; omega)⟩
  obtain ⟨front, back, hisLine, hnumber, hstart, hlineStart, hlineText⟩ :=
    Source.exists_isLine hline
  rw [Nat.add_comm i 1] at hlineStart hlineText
  refine ⟨front.length, hlineStart, ?_⟩
  rw [hlineText, Layout.filter_check tree hline hstart]
  have hloc : (Location.start.after front).line = ((1 + i : Nat) : Int) := by
    rw [Location.line_after, hnumber]
    rfl
  have hview := hisLine.decided.view
  rw [hloc, ← reaches_iff] at hview
  rcases hview with ⟨hreach, hfindings, f, hf, hverbatim, hnoted⟩ | ⟨hnone, hfindings, hlines⟩
  · -- the fact that the lexer notes for the line keeps the second pass away from it
    refine ⟨fun _ => ?_, fun h => absurd hreach h⟩
    have hisVerbatim : Layout.isVerbatim ⟨s.lex, tree⟩ (1 + i) = true :=
      List.any_eq_true.mpr ⟨f, hf, by rw [hverbatim, hnoted]; exact beq_self_eq_true _⟩
    have htrailing : Layout.trailing? ⟨s.lex, tree⟩ (1 + i) front.length line = none := by
      rw [Layout.trailing?, hisVerbatim]
      rfl
    change (List.filter _ (s.pieceList.flatMap Piece.findings)).map _ ++ _ = _
    rw [hfindings, htrailing]
    rfl
  · refine ⟨fun h => absurd h hnone, fun _ => ?_⟩
    rw [indentPiece, Piece.lines_ofIndent, hloc, hisLine.takeWhile_line,
      hisLine.blank_line] at hlines
    obtain ⟨hverbatim, hblank⟩ := Layout.noted_eq (x := ⟨s.lex, tree⟩) hlines
    change ((List.filter _ (s.pieceList.flatMap Piece.findings)).map _ ++ _).map _ = _
    rw [hfindings, hisLine.findings_indentPiece, Layout.trailing?_eq hverbatim, List.map_append]
    refine congr (congrArg _ ?_) ?_
    · split <;> rfl
    · split
      · rename_i hfinal
        have hne : line ≠ [] := fun hnil => hfinal (by rw [hnil, List.rtakeWhile_nil])
        rw [hblank (List.append_ne_nil_of_left_ne_nil hne back)]
        simp only [decide_eq_true_eq]
        rfl
      · rfl

/-- A verbatim string whose lines all end in a space, and a line that is indented with one. -/
def sampleLayout : String :=
  "a \"[ \n x \n ]\" b \n c"

theorem layout_exact_sample :
    let s := Source.ofString sampleLayout "a.e"
    let found := Layout.check ⟨s.lex, s.lex.parse.tree⟩
    s.lineCount = 4 ∧ (∃ t ∈ s.lex.tokens, t.line < 3 ∧ 3 ≤ t.lastLine) ∧
      found.filter (·.location.line == 3) = [] ∧
      (¬ ∃ t ∈ s.lex.tokens, t.line < 4 ∧ 4 ≤ t.lastLine) ∧
      (found.filter (·.location.line == 4)).map (fun d => (d.rule, d.location.offset)) =
        [(.tabExpected, 17)] := by
  intro s found
  have hcount : s.lineCount = 4 := by decide +kernel
  have htokens : s.lex.tokens.map (fun t => (t.line, t.lastLine)) =
      [(1, 1), (1, 3), (3, 3), (4, 4), (4, 4), (4, 4)] := by cbv
  have hreach (k : Int) : (∃ t ∈ s.lex.tokens, t.line < k ∧ k ≤ t.lastLine) ↔
      ∃ p ∈ [((1 : Int), (1 : Int)), (1, 3), (3, 3), (4, 4), (4, 4), (4, 4)],
        p.1 < k ∧ k ≤ p.2 := by
    rw [← htokens]
    simp
  obtain ⟨-, hlines⟩ := layout_exact sampleLayout "a.e" s.lex.parse.tree
  obtain ⟨-, -, hinside, -⟩ := hlines 3 (by decide) (Nat.le_of_lt hcount.ge)
  obtain ⟨start, hstart, -, houtside⟩ := hlines 4 (by decide) hcount.ge
  have hthird := (hreach 3).mpr (by decide)
  have hfourth := mt (hreach 4).mp (by decide)
  refine ⟨hcount, hthird, hinside hthird, hfourth, ?_⟩
  have hline : s.lineText 4 = [' ', 'c'] := by decide +kernel
  obtain rfl : 17 = start := Option.some.inj (Eq.trans (by decide +kernel) hstart)
  have hfound := congrArg (List.map fun d => (d.1, d.2.1.offset)) (houtside hfourth)
  rw [List.map_map, show s.lineText ((4 : Nat) : Int) = [' ', 'c'] from hline] at hfound
  exact hfound.trans (by decide +kernel)

end ContractLint
