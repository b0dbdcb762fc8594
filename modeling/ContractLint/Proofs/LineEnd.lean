/-
# Line ends close every lexeme but one

A lexeme is found by looking ahead: for the end of the line, for the slash that closes an escape,
for the digits behind a dot or an `e`, for the second character of an operator, for the line that
closes a verbatim string.  A line feed stops each of these searches.  So what stands behind a line
feed never changes the lexeme in front of it, with one exception: a verbatim string that was not
closed goes on.

* `lexeme_append`: a lexeme is the same with and without a line feed and any text behind it, unless
  it is an open verbatim string;
* `pieces_append`: so the scan of a text goes through the line feed as if it had stopped there and
  started again.  Only the fact that a line is blank may be new;
* `lex_line_end`: texts that are joined by a line feed are lexed one by one.
-/
import ContractLint.Proofs.Motion

namespace ContractLint

open List (Forall₂)

/-! ## 1. Runs -/

/-- What is behind a run, when more text follows. -/
theorem drop_run_append (p : Char → Bool) (xs ys : List Char) :
    (xs ++ ys).drop (xs.takeWhile p).length = xs.drop (xs.takeWhile p).length ++ ys :=
  List.drop_append_of_le_length (length_run_le p xs)

/-- A word without the character `a` starts a text exactly if it starts the part before `a`. -/
theorem isPrefixOf_append_stop {a : Char} : ∀ {ws : List Char}, a ∉ ws → ∀ xs ys : List Char,
    ws.isPrefixOf (xs ++ a :: ys) = ws.isPrefixOf xs
  | [], _, _, _ => by simp
  | w :: ws, h, [], ys => by
    have hw : (w == a) = false := by simpa using fun he : w = a => h (he ▸ List.mem_cons_self)
    rw [List.nil_append, List.isPrefixOf_cons_cons, hw]
    rfl
  | w :: ws, h, x :: xs, ys => by
    rw [List.cons_append, List.isPrefixOf_cons_cons, List.isPrefixOf_cons_cons,
      isPrefixOf_append_stop (fun hw => h (List.mem_cons_of_mem _ hw))]

theorem restOfLine_append (xs ys : List Char) : restOfLine (xs ++ '\n' :: ys) = restOfLine xs :=
  takeWhile_append_stop rfl xs ys

/-! ## 2. Lexemes -/

namespace Lexeme

/-- A verbatim string that is closed has been closed by the lines that were looked at. -/
theorem verbatimBody_append {closer : List Char} :
    ∀ {lines content : List (List Char)} {n : Nat},
      verbatimBody closer lines = (content, some n) →
        ∀ more, verbatimBody closer (lines ++ more) = (content, some n)
  | [], _, _, h, _ => by cases h
  | line :: lines, content, n, h, more => by
    rw [List.cons_append]
    simp only [verbatimBody] at h ⊢
    split at h
    · rename_i hclose
      rw [if_pos hclose]
      exact h
    · rename_i hclose
      rw [if_neg hclose]
      generalize hrest : verbatimBody closer lines = rest at h
      obtain ⟨content', closing⟩ := rest
      cases h
      rw [verbatimBody_append hrest more]

/-- The length of a lexeme and what it carries do not depend on what follows a closed verbatim
string. -/
theorem verbatim_append {closer opening cs : List Char} (hopening : opening.length ≤ cs.length)
    (h : (verbatim closer opening cs).fault ≠ some .unterminatedVerbatim) (ds : List Char) :
    verbatim closer opening (cs ++ '\n' :: ds) = verbatim closer opening cs := by
  unfold verbatim at h ⊢
  rw [List.drop_append_of_le_length hopening]
  cases hcs : cs.drop opening.length with
  | nil => simp [hcs] at h
  | cons c body =>
    rw [hcs] at h
    rw [List.cons_append]
    dsimp only at h ⊢
    rw [Text.splitAt_append]
    generalize hlines : verbatimBody closer (Text.splitAt '\n' body) = lines at h ⊢
    obtain ⟨content, closing⟩ := lines
    cases closing with
    | none => exact absurd rfl h
    | some n => rw [verbatimBody_append hlines]

theorem string_append (offset : Int) {cs : List Char}
    (h : (string offset cs).fault ≠ some .unterminatedVerbatim) (ds : List Char) :
    string offset (cs ++ '\n' :: ds) = string offset cs := by
  unfold string at h ⊢
  dsimp only at h ⊢
  rw [restOfLine_append]
  split at h
  · exact verbatim_append (length_restOfLine_le cs) h ds
  · rfl

theorem fraction_append (cs ds : List Char) : fraction (cs ++ '\n' :: ds) = fraction cs := by
  match cs with
  | [] => rfl
  | [c] =>
    by_cases hc : c = '.'
    · subst hc
      rfl
    · simp [fraction, hc]
  | c :: d :: rest =>
    by_cases hc : c = '.'
    · subst hc
      simp only [List.cons_append, fraction]
      rw [takeWhile_append_stop rfl]
    · simp [fraction, hc]

theorem sign_append (cs ds : List Char) : sign (cs ++ '\n' :: ds) = sign cs := by
  cases cs <;> rfl

theorem exponent_append (cs ds : List Char) : exponent (cs ++ '\n' :: ds) = exponent cs := by
  cases cs with
  | nil => rfl
  | cons e rest =>
    rw [List.cons_append, exponent, exponent, sign_append,
      List.drop_append_of_le_length (sign_le rest), takeWhile_append_stop rfl]

theorem decimalTail_append (cs ds : List Char) :
    decimalTail (cs ++ '\n' :: ds) = decimalTail cs := by
  have hpart : (cs.takeWhile isNumberTail).length +
      fraction (cs.drop (cs.takeWhile isNumberTail).length) ≤ cs.length := by
    have h₁ := length_run_le isNumberTail cs
    have h₂ := fraction_le (cs.drop (cs.takeWhile isNumberTail).length)
    rw [List.length_drop] at h₂
    omega
  unfold decimalTail
  dsimp only
  rw [takeWhile_append_stop rfl, drop_run_append, fraction_append,
    List.drop_append_of_le_length hpart, exponent_append]

theorem numberTail_append (c : Char) (cs ds : List Char) :
    numberTail c (cs ++ '\n' :: ds) = numberTail c cs := by
  cases cs with
  | nil =>
    have hletter : (Radix.ofLetter? '\n').isSome = false := rfl
    rw [List.nil_append, numberTail, numberTail, hletter, if_neg (by simp)]
    exact decimalTail_append [] ds
  | cons letter rest =>
    rw [List.cons_append, numberTail, numberTail, takeWhile_append_stop rfl, ← List.cons_append,
      decimalTail_append]

theorem newline_notMem_spelling (s : Symbol) : '\n' ∉ s.spelling.toList := by
  cases s <;> decide

theorem operator_append (c : Char) (cs ds : List Char) :
    operator c (cs ++ '\n' :: ds) = operator c cs := by
  have hread : Symbol.read? (c :: (cs ++ '\n' :: ds)) = Symbol.read? (c :: cs) := by
    unfold Symbol.read?
    congr 1
    funext s
    exact isPrefixOf_append_stop (newline_notMem_spelling s) (c :: cs) ds
  unfold operator
  rw [hread]

end Lexeme

theorem head?_append_eq_some_iff (cs ds : List Char) :
    (cs ++ '\n' :: ds).head? = some '-' ↔ cs.head? = some '-' := by
  cases cs <;> simp

/-- **A line end closes every lexeme that is no open verbatim string.** -/
theorem lexeme_append (offset : Int) (c : Char) {cs : List Char}
    (h : (lexeme offset c cs).fault ≠ some .unterminatedVerbatim) (ds : List Char) :
    lexeme offset c (cs ++ '\n' :: ds) = lexeme offset c cs := by
  unfold lexeme at h ⊢
  simp only [head?_append_eq_some_iff]
  split
  · rw [Lexeme.comment, Lexeme.comment, restOfLine_append]
  rename_i hdash
  rw [if_neg hdash] at h
  split
  · rename_i hquote
    rw [if_pos hquote] at h
    exact Lexeme.string_append offset h ds
  split
  · rw [Lexeme.character, Lexeme.character, restOfLine_append]
  split
  · rw [Lexeme.word, Lexeme.word, takeWhile_append_stop rfl]
  split
  · rw [Lexeme.numberTail_append]
  · exact Lexeme.operator_append c cs ds

/-! ## 3. The scan -/

theorem mem_filterMap_cons {p : Piece} {ps : List Piece} {t : Token}
    (h : t ∈ ps.filterMap Piece.token) : t ∈ (p :: ps).filterMap Piece.token :=
  ((List.sublist_cons_self p ps).filterMap Piece.token).subset h

/-- A piece that shows neither in the tokens nor in the findings. -/
def Piece.IsSilent (p : Piece) : Prop :=
  p.token = none ∧ p.findings = []

section Steps

variable (loc : Location) (c : Char) (rest ds : List Char)

/-- The start of a line is the same with more text behind its end. -/
theorem pieces_indent_append :
    let indent := (c :: rest).takeWhile isIndent
    let after := (c :: rest).drop indent.length
    pieces true loc (c :: rest ++ '\n' :: ds) =
      Piece.ofIndent loc indent (after.head?.getD '\n' == '\n') ::
        pieces false (loc.after indent) (after ++ '\n' :: ds) := by
  intro indent after
  have hindent : (c :: (rest ++ '\n' :: ds)).takeWhile isIndent = indent :=
    takeWhile_append_stop rfl (c :: rest) ds
  have hafter : (c :: (rest ++ '\n' :: ds)).drop indent.length = after ++ '\n' :: ds :=
    drop_run_append isIndent (c :: rest) ('\n' :: ds)
  have hblank : (after ++ '\n' :: ds).head?.getD '\n' = after.head?.getD '\n' := by
    cases after <;> rfl
  rw [List.cons_append, pieces, hindent, hafter, hblank]

/-- A lexeme that is closed is the same with more text behind its line. -/
theorem pieces_lexeme_append (hc : ¬ c = '\n') (hskip : ¬ isSkipped c = true)
    (h : (lexeme loc.offset c rest).fault ≠ some .unterminatedVerbatim) :
    let x := lexeme loc.offset c rest
    let text := c :: rest.take x.taken
    pieces false loc (c :: rest ++ '\n' :: ds) =
      Piece.ofLexeme loc text x ::
        pieces false (loc.after text) (rest.drop x.taken ++ '\n' :: ds) := by
  intro x text
  have htaken : x.taken ≤ rest.length := lexeme_taken_le loc.offset c rest
  rw [List.cons_append, pieces, if_neg hc, if_neg hskip, lexeme_append loc.offset c h ds]
  dsimp only
  rw [List.take_append_of_le_length htaken, List.drop_append_of_le_length htaken]

end Steps

/-- **The scan of a text starts again behind a line feed**, unless a verbatim string is open there.
When the line feed ends a line on which nothing was read, the blank line leaves a piece. -/
theorem pieces_append {fresh : Bool} {loc : Location} {cs : List Char} (ds : List Char)
    (h : ∀ t ∈ (pieces fresh loc cs).filterMap Piece.token,
      t.fault ≠ some .unterminatedVerbatim) :
    ∃ gap, (∀ p ∈ gap, p.IsSilent) ∧
      pieces fresh loc (cs ++ '\n' :: ds) =
        pieces fresh loc cs ++ gap ++ pieces true (loc.after (cs ++ ['\n'])) ds := by
  fun_induction pieces fresh loc cs with
  | case1 fresh loc =>
    cases fresh with
    | false => exact ⟨[], by simp, by simp [pieces]⟩
    | true =>
      refine ⟨[Piece.ofIndent loc [] true], by simp [Piece.IsSilent, Piece.ofIndent], ?_⟩
      simp [pieces, isIndent]
  | case2 loc c rest indent after blank =>
    rename_i ih
    have hsplit : indent ++ after = c :: rest :=
      List.prefix_iff_eq_append.mp (List.takeWhile_prefix isIndent)
    obtain ⟨gap, hgap, hpieces⟩ := ih fun t ht => h t (mem_filterMap_cons ht)
    refine ⟨gap, hgap, ?_⟩
    rw [pieces_indent_append, hpieces, ← Location.after_append, ← List.append_assoc, hsplit]
    rfl
  | case3 loc rest ih =>
    obtain ⟨gap, hgap, hpieces⟩ := ih h
    refine ⟨gap, hgap, ?_⟩
    rw [List.cons_append, pieces, if_pos rfl, hpieces]
    rfl
  | case4 loc c rest hc hskip ih =>
    obtain ⟨gap, hgap, hpieces⟩ := ih h
    refine ⟨gap, hgap, ?_⟩
    rw [List.cons_append, pieces, if_neg hc, if_pos hskip, hpieces]
    rfl
  | case5 loc c rest hc hskip x text =>
    rename_i ih
    have hfault : x.fault ≠ some .unterminatedVerbatim :=
      h _ (List.mem_filterMap.mpr ⟨_, List.mem_cons_self, Piece.token_ofLexeme loc text x⟩)
    have hsplit : text ++ rest.drop x.taken = c :: rest := by
      rw [List.cons_append, List.take_append_drop]
    obtain ⟨gap, hgap, hpieces⟩ := ih fun t ht => h t (mem_filterMap_cons ht)
    refine ⟨gap, hgap, ?_⟩
    rw [pieces_lexeme_append loc c rest ds hc hskip hfault, hpieces, ← Location.after_append,
      ← List.append_assoc, hsplit]
    rfl

/-! ## 4. Texts -/

theorem Location.line_after (l : Location) (cs : List Char) :
    (l.after cs).line = l.line + cs.count '\n' := by
  induction cs generalizing l with
  | nil => simp
  | cons c cs ih =>
    rw [after_cons, ih, next, List.count_cons]
    by_cases hc : c = '\n'
    · simp only [hc, if_pos, beq_self_eq_true, Int.natCast_add, Int.natCast_one]
      omega
    · simp [hc]

namespace Motion

/-- Where the points of a text go when `cs` and a line feed are put in front of it. -/
def behind (cs : List Char) : Motion :=
  shift (1 + cs.count '\n') (cs.length + 1)

theorem behind_start (cs : List Char) :
    (behind cs).place Location.start = Location.start.after (cs ++ ['\n']) := by
  rw [Location.after_append, Location.after_cons, Location.after_nil, Location.next, if_pos rfl,
    Location.line_after, Location.offset_after]
  simp only [behind, shift, Location.start, Location.mk.injEq, true_and]
  omega

end Motion

section Moved

variable {m : Motion} {ps qs : List Piece}

theorem tokens_of_moved (h : Forall₂ (Piece.Moved m) ps qs) :
    qs.filterMap Piece.token = (ps.filterMap Piece.token).map (Token.move m) := by
  induction h with
  | nil => rfl
  | cons hpq _ ih =>
    rw [List.filterMap_cons, List.filterMap_cons, hpq.token, ih]
    cases Piece.token _ <;> rfl

theorem findings_of_moved (h : Forall₂ (Piece.Moved m) ps qs) :
    qs.flatMap Piece.findings = (ps.flatMap Piece.findings).map (Finding.move m) := by
  induction h with
  | nil => rfl
  | cons hpq _ ih => rw [List.flatMap_cons, List.flatMap_cons, hpq.findings, ih, List.map_append]

end Moved

theorem tokens_of_silent {ps : List Piece} (h : ∀ p ∈ ps, p.IsSilent) :
    ps.filterMap Piece.token = [] :=
  List.filterMap_eq_nil_iff.mpr fun p hp => (h p hp).1

theorem findings_of_silent {ps : List Piece} (h : ∀ p ∈ ps, p.IsSilent) :
    ps.flatMap Piece.findings = [] :=
  List.flatMap_eq_nil_iff.mpr fun p hp => (h p hp).2

/-- No verbatim string of the source is open. -/
def Source.Closed (s : Source) : Prop :=
  ∀ t ∈ s.lex.tokens, t.fault ≠ some .unterminatedVerbatim

section Joined

variable {path : String} {cs : List Char} (h : (Source.mk path cs).Closed) (ds : List Char)

include h

theorem pieceList_append :
    ∃ gap moved, (∀ p ∈ gap, p.IsSilent) ∧
      Forall₂ (Piece.Moved (.behind cs)) (Source.mk path ds).pieceList moved ∧
      (Source.mk path (cs ++ '\n' :: ds)).pieceList =
        (Source.mk path cs).pieceList ++ gap ++ moved := by
  obtain ⟨gap, hgap, hpieces⟩ := @pieces_append true .start cs ds
    fun t ht => h t (List.mem_append_left _ ht)
  rw [← Motion.behind_start] at hpieces
  exact ⟨gap, _, hgap, pieces_shift _ _ true .start ds, hpieces⟩

/-- **The tokens of joined texts are those of the parts.** -/
theorem tokens_append :
    (Source.mk path (cs ++ '\n' :: ds)).lex.tokens =
      (Source.mk path cs).innerTokens ++
        (Source.mk path ds).lex.tokens.map (Token.move (.behind cs)) := by
  obtain ⟨gap, moved, hgap, hmoved, hpieces⟩ := pieceList_append h ds
  have heof : (Source.mk path (cs ++ '\n' :: ds)).eof =
      (Source.mk path ds).eof.move (.behind cs) := by
    have hplace : (Motion.behind cs).place (Location.start.after ds) =
        Location.start.after (cs ++ '\n' :: ds) := by
      rw [Motion.behind, ← Motion.shift_after, ← Motion.behind, Motion.behind_start,
        ← Location.after_append, List.append_assoc, List.singleton_append]
    unfold Source.eof Token.move
    rw [hplace]
    rfl
  have hinner : (Source.mk path (cs ++ '\n' :: ds)).innerTokens =
      (Source.mk path cs).innerTokens ++
        (Source.mk path ds).innerTokens.map (Token.move (.behind cs)) := by
    unfold Source.innerTokens
    rw [hpieces, List.filterMap_append, List.filterMap_append, tokens_of_silent hgap,
      List.append_nil, tokens_of_moved hmoved]
  rw [Source.tokens_lex, Source.tokens_lex, hinner, heof, List.map_append, List.append_assoc]
  rfl

theorem findings_append :
    (Source.mk path (cs ++ '\n' :: ds)).lex.findings =
      (Source.mk path cs).lex.findings ++
        (Source.mk path ds).lex.findings.map (Finding.move (.behind cs)) := by
  obtain ⟨gap, moved, hgap, hmoved, hpieces⟩ := pieceList_append h ds
  simp only [Source.lex, hpieces, List.flatMap_append, findings_of_silent hgap,
    findings_of_moved hmoved, List.append_nil]

end Joined

/-- Without carriage returns there is nothing to normalise. -/
theorem normalizeLineEnds_append {cs : List Char} (h : '\r' ∉ cs) (ds : List Char) :
    normalizeLineEnds (cs ++ ds) = cs ++ normalizeLineEnds ds := by
  induction cs with
  | nil => rfl
  | cons c cs ih =>
    have hc : c ≠ '\r' := fun hc => h (hc ▸ List.mem_cons_self)
    rw [List.cons_append, normalizeLineEnds, if_neg hc, ih fun h' => h (List.mem_cons_of_mem _ h')]
    · rfl
    · exact fun _ hc' _ => hc hc'

/-- **Lexing is compositional at line ends.**  The tokens of two texts that are joined by a line
feed are those of the first text, without its end, and those of the second, moved behind the first;
and so are the diagnostics of the scan.  Only a verbatim string that the first text leaves open
could reach over the line feed. -/
theorem lex_line_end (a b path : String) (ha : '\r' ∉ a.toList)
    (hclosed : ∀ t ∈ (Source.ofString a path).lex.tokens,
      t.fault ≠ some .unterminatedVerbatim) :
    let x := (Source.ofString a path).lex
    let y := (Source.ofString b path).lex
    let z := (Source.ofString (a ++ "\n" ++ b) path).lex
    let m := Motion.shift (1 + a.toList.count '\n') (a.length + 1)
    z.tokens = x.tokens.dropLast ++ y.tokens.map (Token.move m) ∧
      z.tokens.map Token.value = (x.tokens.dropLast ++ y.tokens).map Token.value ∧
      z.diagnostics = x.diagnostics ++ y.diagnostics.map (Diagnostic.move m) := by
  intro x y z m
  have hx : Source.ofString a path = ⟨path, a.toList⟩ := by
    have ha' := normalizeLineEnds_append ha []
    rw [List.append_nil, normalizeLineEnds, List.append_nil] at ha'
    rw [Source.ofString, ha']
  have hz : Source.ofString (a ++ "\n" ++ b) path =
      ⟨path, a.toList ++ '\n' :: (Source.ofString b path).text⟩ := by
    have hlist : (a ++ "\n" ++ b).toList = a.toList ++ '\n' :: b.toList := by simp
    rw [Source.ofString, hlist, normalizeLineEnds_append ha]
    rfl
  have hm : m = .behind a.toList := by
    rw [Motion.behind, String.length_toList]
  rw [hx] at hclosed
  have htokens : z.tokens = x.tokens.dropLast ++ y.tokens.map (Token.move m) := by
    unfold z x
    rw [hz, hx, tokens_append hclosed, Source.tokens_lex ⟨path, a.toList⟩, List.dropLast_concat, hm]
    rfl
  have hfindings : z.findings = x.findings ++ y.findings.map (Finding.move m) := by
    unfold z x
    rw [hz, hx, findings_append hclosed, hm]
    rfl
  refine ⟨htokens, ?_, ?_⟩
  · rw [htokens, List.map_append, List.map_append, List.map_map]
    exact congrArg (_ ++ ·) (List.map_congr_left fun t _ => t.value_move m)
  · unfold Lexed.diagnostics
    rw [hfindings, List.map_append, List.map_map, List.map_map]
    exact congrArg (_ ++ ·) (List.map_congr_left fun f _ => f.diagnostic_move m path)

/-- In front of the line feed a verbatim string that is closed and a string that is not, malformed
escapes on both sides. -/
theorem lex_line_end_sample :
    let x := (Source.ofString "\"[\nab\n]\" \"%/x" "a.e").lex
    let y := (Source.ofString "c := '%!'" "a.e").lex
    let z := (Source.ofString "\"[\nab\n]\" \"%/x\nc := '%!'" "a.e").lex
    let m := Motion.shift 3 14
    x.tokens.map Token.fault = [none, some .unterminatedString, none] ∧
      z.tokens = x.tokens.dropLast ++ y.tokens.map (Token.move m) ∧
      z.diagnostics = x.diagnostics ++ y.diagnostics.map (Diagnostic.move m) := by
  intro x y z m
  have hfaults : x.tokens.map Token.fault = [none, some .unterminatedString, none] := by cbv
  have hclosed : ∀ t ∈ x.tokens, t.fault ≠ some .unterminatedVerbatim := by
    intro t ht hfault
    have hmem : t.fault ∈ x.tokens.map Token.fault := List.mem_map_of_mem ht
    simp [hfaults, hfault] at hmem
  have h := lex_line_end "\"[\nab\n]\" \"%/x" "c := '%!'" "a.e" (by decide) hclosed
  exact ⟨hfaults, h.1, h.2.2⟩

end ContractLint
