/-
# Blank lines

One more line feed at the start of a line moves everything behind it down by a line and on by a
character, and changes nothing else: not the tokens, not the tree, not the errors, not where reading
resumes.  This holds of every text, well formed or not, and of every line start outside the strings;
inside a verbatim string the line feed would be content.

The argument has two halves.  For the tokens, the line feed in front of the new one closes every
lexeme (`closed_of_uncovered`), so the texts before and behind it are lexed one by one.  For the
tree, the motion keeps columns, and it keeps the order of lines because the points it moves are on
later lines than those it leaves (`steady_onwards`).
-/
import ContractLint.Proofs.MovedTree
import ContractLint.Proofs.Spelling

namespace ContractLint

/-! ## 1. Motions of the rest of a text -/

/-- The motion of what starts at the offset `first` or behind it. -/
def Motion.onwards (m : Motion) (first : Int) : Motion where
  place l := if first ≤ l.offset then m.place l else l
  offset o := if first ≤ o then m.offset o else o

/-- The offset of an escape. -/
def Segment.offset? : Segment → Option Int
  | plain _ => none
  | escape offset _ | malformed offset _ _ => some offset

/-- The offsets of the escapes of a token. -/
def Token.escapeOffsets (t : Token) : List Int :=
  t.segments.filterMap Segment.offset?

theorem Segment.move_congr {m k : Motion} {seg : Segment}
    (h : ∀ o ∈ seg.offset?, m.offset o = k.offset o) : seg.move m = seg.move k := by
  cases seg with
  | plain => rfl
  | escape offset e => rw [Segment.move, Segment.move, h offset rfl]
  | malformed offset raw fault => rw [Segment.move, Segment.move, h offset rfl]

/-- A motion of a token is what it does to the token's place and to its escapes. -/
theorem Token.move_congr {m k : Motion} {t : Token}
    (hplace : m.place t.location = k.place t.location)
    (hoffset : ∀ o ∈ t.escapeOffsets, m.offset o = k.offset o) : t.move m = t.move k := by
  have hsegments : t.segments.map (Segment.move m) = t.segments.map (Segment.move k) :=
    List.map_congr_left fun seg hseg => Segment.move_congr fun o ho =>
      hoffset o (List.mem_filterMap.mpr ⟨seg, hseg, ho⟩)
  rw [Token.move, Token.move, hplace, hsegments]

theorem Token.move_move (m k : Motion) (t : Token) :
    (t.move m).move k = t.move ⟨k.place ∘ m.place, k.offset ∘ m.offset⟩ := by
  have hsegment (seg : Segment) :
      (seg.move m).move k = seg.move ⟨k.place ∘ m.place, k.offset ∘ m.offset⟩ := by
    cases seg <;> rfl
  simp [Token.move, hsegment]

theorem Token.move_id (t : Token) : t.move ⟨id, id⟩ = t := by
  have hsegment : Segment.move ⟨id, id⟩ = id := by
    funext seg
    cases seg <;> rfl
  rw [Token.move, hsegment, List.map_id]
  rfl

/-! ## 2. Where escapes are -/

theorem Segment.offset?_ofScan (offset : Int) (cs : List Char) (s : Escape.Scan) :
    (ofScan offset cs s).offset? = some offset := by
  unfold ofScan
  split <;> rfl

/-- The escapes of content lie inside it. -/
theorem escape_mem_segments (stop : Char → Bool) (offset : Int) (cs : List Char) :
    ∀ seg ∈ segments stop offset cs, ∀ o ∈ seg.offset?, offset ≤ o ∧ o < offset + cs.length := by
  fun_induction segments stop offset cs with
  | case1 => exact fun seg hseg => absurd hseg List.not_mem_nil
  | case2 => exact fun seg hseg => absurd hseg List.not_mem_nil
  | case3 offset rest s hstop =>
    rename_i ih
    intro seg hseg o ho
    rw [List.length_cons]
    rcases List.mem_cons.mp hseg with rfl | hseg
    · obtain rfl : offset = o := by simpa [Segment.offset?_ofScan] using ho
      omega
    · have htaken : s.taken ≤ rest.length := Escape.scan_taken_le rest
      have hbounds := ih seg hseg o ho
      rw [List.length_drop] at hbounds
      omega
  | case4 offset c rest hstop hc tail =>
    rename_i ih
    intro seg hseg o ho
    rw [List.length_cons]
    rcases List.mem_cons.mp hseg with rfl | hseg
    · cases ho
    · have htail : tail.length ≤ rest.length := length_run_le _ rest
      have hbounds := ih seg hseg o ho
      rw [List.length_drop] at hbounds
      omega

/-- A verbatim string has no escapes. -/
theorem Lexeme.offset?_verbatim (closer opening cs : List Char) :
    ∀ seg ∈ (verbatim closer opening cs).segments, seg.offset? = none := by
  have hplain (value : List Char) :
      ∀ seg ∈ (if value = [] then [] else [Segment.plain value]), seg.offset? = none := by
    intro seg hseg
    split at hseg
    · cases hseg
    · rw [List.mem_singleton.mp hseg]
      rfl
  unfold verbatim
  split
  · exact fun seg hseg => absurd hseg List.not_mem_nil
  · dsimp only
    split <;> exact hplain _

theorem Lexeme.segments_manifest (offset : Int) (line : List Char) :
    (manifest offset line).segments = ContractLint.segments (· == '"') (offset + 1) line := by
  unfold manifest
  dsimp only
  split <;> rfl

theorem escape_mem_string (offset : Int) (cs : List Char) :
    ∀ seg ∈ (Lexeme.string offset cs).segments, ∀ o ∈ seg.offset?,
      offset ≤ o ∧ o < offset + 1 + cs.length := by
  have hline := length_restOfLine_le cs
  intro seg hseg o ho
  unfold Lexeme.string at hseg
  dsimp only at hseg
  split at hseg
  · rw [Lexeme.offset?_verbatim _ _ _ seg hseg] at ho
    cases ho
  · rw [Lexeme.segments_manifest] at hseg
    have hbounds := escape_mem_segments _ _ _ seg hseg o ho
    omega

theorem escape_mem_character (offset : Int) (cs : List Char) :
    ∀ seg ∈ (Lexeme.character offset cs).segments, ∀ o ∈ seg.offset?,
      offset ≤ o ∧ o < offset + 1 + cs.length := by
  have hline := length_restOfLine_le cs
  intro seg hseg o ho
  unfold Lexeme.character at hseg
  split at hseg
  · cases hseg
  · rename_i c rest hcs
    rw [hcs, List.length_cons] at hline
    split at hseg
    · cases hseg
    · rw [List.mem_singleton.mp hseg, Lexeme.characterContent] at ho
      split at ho
      · obtain rfl : offset + 1 = o := by simpa [Segment.offset?_ofScan] using ho
        omega
      · cases ho

/-- The escapes of a lexeme lie between its first character and the end of the text. -/
theorem escape_mem_lexeme (offset : Int) (c : Char) (cs : List Char) :
    ∀ seg ∈ (lexeme offset c cs).segments, ∀ o ∈ seg.offset?,
      offset ≤ o ∧ o < offset + 1 + cs.length := by
  unfold lexeme
  split
  · exact fun seg hseg => absurd hseg List.not_mem_nil
  split
  · exact escape_mem_string offset cs
  split
  · exact escape_mem_character offset cs
  split
  · exact fun seg hseg => absurd hseg List.not_mem_nil
  split
  · exact fun seg hseg => absurd hseg List.not_mem_nil
  · unfold Lexeme.operator
    split <;> exact fun seg hseg => absurd hseg List.not_mem_nil

/-- **Tokens and their escapes lie in the text they were read from.** -/
theorem within_of_mem_pieces {fresh : Bool} {loc : Location} {cs : List Char} :
    ∀ t ∈ (pieces fresh loc cs).filterMap Piece.token, ∀ o ∈ t.offset :: t.escapeOffsets,
      loc.offset ≤ o ∧ o < loc.offset + cs.length := by
  fun_induction pieces fresh loc cs with
  | case1 => exact fun t ht => absurd ht List.not_mem_nil
  | case2 loc c rest indent after blank =>
    rename_i ih
    have hlength : indent.length + after.length = (c :: rest).length := by
      rw [← List.length_append, List.prefix_iff_eq_append.mp (List.takeWhile_prefix isIndent)]
    rw [Location.offset_after] at ih
    intro t ht o ho
    rw [List.filterMap_cons, Piece.token_ofIndent] at ht
    by_cases hindent : indent = [] ∨ blank = true
    · rw [if_pos hindent] at ht
      have hbounds := ih t ht o ho
      omega
    · rw [if_neg hindent] at ht
      rcases List.mem_cons.mp ht with rfl | ht
      · obtain rfl : o = loc.offset := by simpa [Token.escapeOffsets, Token.offset] using ho
        simp only [List.length_cons]
        omega
      · have hbounds := ih t ht o ho
        omega
  | case3 loc rest ih =>
    intro t ht o ho
    have hbounds := ih t ht o ho
    rw [Location.offset_next] at hbounds
    rw [List.length_cons]
    omega
  | case4 loc c rest hc hskip ih =>
    intro t ht o ho
    have hbounds := ih t ht o ho
    rw [Location.offset_next] at hbounds
    rw [List.length_cons]
    omega
  | case5 loc c rest hc hskip x text =>
    rename_i ih
    have hlength : text.length + (rest.drop x.taken).length = rest.length + 1 := by
      rw [← List.length_append, List.cons_append, List.take_append_drop, List.length_cons]
    rw [Location.offset_after] at ih
    intro t ht o ho
    rw [List.length_cons]
    rcases List.mem_cons.mp ht with rfl | ht
    · rcases List.mem_cons.mp ho with rfl | ho
      · simp only [Token.offset]
        omega
      · obtain ⟨seg, hseg, ho⟩ := List.mem_filterMap.mp ho
        have hbounds := escape_mem_lexeme loc.offset c rest seg hseg o ho
        omega
    · have hbounds := ih t ht o ho
      omega

/-! ## 3. Line feeds outside strings -/

namespace Lexeme

/-- If none of some lines closes a verbatim string, all of them are content. -/
theorem verbatimBody_append_of_open {closer : List Char} :
    ∀ {lines : List (List Char)}, (verbatimBody closer lines).2 = none → ∀ more,
      (verbatimBody closer (lines ++ more)).1 = lines ++ (verbatimBody closer more).1
  | [], _, _ => rfl
  | line :: lines, h, more => by
    rw [List.cons_append, verbatimBody]
    rw [verbatimBody] at h
    dsimp only at h ⊢
    split at h
    · cases h
    · rename_i hclose
      rw [if_neg hclose, verbatimBody_append_of_open h]
      rfl

theorem length_lines (body : List Char) :
    ((Text.splitAt '\n' body).flatMap fun line => line ++ ['\n']).length = body.length + 1 := by
  induction body with
  | nil => rfl
  | cons c body ih =>
    obtain ⟨p, ps, hp⟩ := List.exists_cons_of_ne_nil (Text.splitAt_ne_nil '\n' body)
    rw [Text.splitAt]
    split
    · rw [List.flatMap_cons, List.length_append, ih]
      simp only [List.nil_append, List.length_cons, List.length_nil]
      omega
    · rw [hp] at ih ⊢
      simp only [List.flatMap_cons, List.length_append, List.length_cons, List.length_nil] at ih ⊢
      omega

/-- **An open verbatim string reaches over the end of its text** into whatever follows. -/
theorem verbatim_reaches {closer opening cs : List Char} (hopening : opening.length ≤ cs.length)
    (h : (verbatim closer opening cs).fault = some .unterminatedVerbatim) (ds : List Char) :
    cs.length < (verbatim closer opening (cs ++ '\n' :: ds)).taken := by
  unfold verbatim at h ⊢
  rw [List.drop_append_of_le_length hopening]
  cases hcs : cs.drop opening.length with
  | nil =>
    have hle : cs.length ≤ opening.length := List.drop_eq_nil_iff.mp hcs
    rw [List.nil_append]
    dsimp only
    split
    · dsimp only
      omega
    · simp
  | cons c body =>
    have hlength : cs.length = opening.length + 1 + body.length := by
      have hdrop := congrArg List.length hcs
      rw [List.length_drop, List.length_cons] at hdrop
      omega
    rw [hcs] at h
    dsimp only at h
    have hopen : (verbatimBody closer (Text.splitAt '\n' body)).2 = none := by
      split at h
      · cases h
      · assumption
    rw [List.cons_append]
    dsimp only
    rw [Text.splitAt_append]
    split
    · rw [verbatimBody_append_of_open hopen, List.flatMap_append, List.length_append, length_lines]
      dsimp only
      omega
    · simp

theorem string_reaches {offset : Int} {cs : List Char}
    (h : (string offset cs).fault = some .unterminatedVerbatim) (ds : List Char) :
    cs.length < (string offset (cs ++ '\n' :: ds)).taken := by
  unfold string at h ⊢
  dsimp only at h ⊢
  rw [restOfLine_append]
  split at h
  · exact verbatim_reaches (length_restOfLine_le cs) h ds
  · unfold manifest at h
    dsimp only at h
    split at h <;> cases h

end Lexeme

/-- The token's text covers the offset. -/
def Token.Covers (t : Token) (offset : Int) : Prop :=
  t.offset ≤ offset ∧ offset < t.endOffset

theorem lexeme_reaches {offset : Int} {c : Char} {cs : List Char}
    (h : (lexeme offset c cs).fault = some .unterminatedVerbatim) (ds : List Char) :
    (lexeme offset c (cs ++ '\n' :: ds)).kind = .string ∧
      cs.length < (lexeme offset c (cs ++ '\n' :: ds)).taken := by
  obtain rfl : c = '"' := by
    by_contra hc
    exact fault_of_ne_quote offset hc cs h
  exact ⟨Lexeme.kind_string offset _, Lexeme.string_reaches h ds⟩

/-- A text ends where the rest of it ends. -/
theorem Location.offset_after_add {front rest cs : List Char} (loc : Location)
    (h : front ++ rest = cs) :
    (loc.after front).offset + (rest.length : Int) = loc.offset + cs.length := by
  rw [offset_after, ← h, List.length_append]
  omega

/-- **Where no string covers a line feed, none is open in front of it.** -/
theorem closed_of_uncovered {fresh : Bool} {loc : Location} {cs : List Char} (ds : List Char)
    (h : ∀ t ∈ (pieces fresh loc (cs ++ '\n' :: ds)).filterMap Piece.token, t.kind = .string →
      ¬ t.Covers (loc.offset + cs.length)) :
    ∀ t ∈ (pieces fresh loc cs).filterMap Piece.token,
      t.fault ≠ some .unterminatedVerbatim := by
  fun_induction pieces fresh loc cs with
  | case1 => exact fun t ht => absurd ht List.not_mem_nil
  | case2 loc c rest indent after blank =>
    rename_i ih
    have hoffset : (loc.after indent).offset + (after.length : Int) =
        loc.offset + (c :: rest).length :=
      loc.offset_after_add (List.prefix_iff_eq_append.mp (List.takeWhile_prefix isIndent))
    rw [pieces_indent_append] at h
    have hrest := ih fun t ht => hoffset ▸ h t (mem_filterMap_cons ht)
    intro t ht
    rw [List.filterMap_cons, Piece.token_ofIndent] at ht
    split at ht
    · exact hrest t ht
    · rename_i u hu
      rcases List.mem_cons.mp ht with rfl | ht
      · split at hu
        · cases hu
        · rw [← Option.some.inj hu]
          intro hfault
          cases hfault
      · exact hrest t ht
  | case3 loc rest ih =>
    rw [List.cons_append, pieces, if_pos rfl] at h
    have hoffset : (loc.next '\n').offset + (rest.length : Int) =
        loc.offset + ('\n' :: rest).length :=
      loc.offset_after_add (rfl : ['\n'] ++ rest = '\n' :: rest)
    exact ih fun t ht => hoffset ▸ h t ht
  | case4 loc c rest hc hskip ih =>
    rw [List.cons_append, pieces, if_neg hc, if_pos hskip] at h
    have hoffset : (loc.next c).offset + (rest.length : Int) =
        loc.offset + (c :: rest).length :=
      loc.offset_after_add (rfl : [c] ++ rest = c :: rest)
    exact ih fun t ht => hoffset ▸ h t ht
  | case5 loc c rest hc hskip x text =>
    rename_i ih
    by_cases hfault : x.fault = some .unterminatedVerbatim
    · -- the string goes on behind the line feed, so it covers it
      obtain ⟨hkind, htaken⟩ := lexeme_reaches hfault ds
      have hle := lexeme_taken_le loc.offset c (rest ++ '\n' :: ds)
      rw [List.cons_append, pieces, if_neg hc, if_neg hskip] at h
      refine absurd ?_ (h _ (List.mem_filterMap.mpr
        ⟨_, List.mem_cons_self, Piece.token_ofLexeme _ _ _⟩) hkind)
      simp only [Token.Covers, Token.offset, Token.endOffset, String.length_ofList,
        List.length_cons, List.length_take]
      omega
    · have hoffset : (loc.after text).offset + ((rest.drop x.taken).length : Int) =
          loc.offset + (c :: rest).length :=
        loc.offset_after_add (by rw [List.cons_append, List.take_append_drop])
      rw [pieces_lexeme_append loc c rest ds hc hskip hfault] at h
      have hrest := ih fun t ht => hoffset ▸ h t (mem_filterMap_cons ht)
      intro t ht
      rcases List.mem_cons.mp ht with rfl | ht
      · exact hfault
      · exact hrest t ht

theorem closed_of_newline {path : String} {cs ds : List Char}
    (h : ∀ t ∈ (Source.mk path (cs ++ '\n' :: ds)).lex.tokens, t.kind = .string →
      ¬ t.Covers cs.length) : (Source.mk path cs).Closed := by
  have hinner := @closed_of_uncovered true .start cs ds fun t ht hkind =>
    (Int.zero_add (cs.length : Int)).symm ▸ h t (List.mem_append_left _ ht) hkind
  intro t ht
  rcases List.mem_append.mp ht with ht | ht
  · exact hinner t ht
  · rw [List.mem_singleton.mp ht]
    intro hfault
    cases hfault

/-! ## 4. The tokens -/

theorem Source.within {s : Source} {t : Token} (ht : t ∈ s.innerTokens) :
    ∀ o ∈ t.offset :: t.escapeOffsets, 0 ≤ o ∧ o < s.length := by
  intro o ho
  have hbounds := within_of_mem_pieces t ht o ho
  have hstart : Location.start.offset = 0 := rfl
  rw [hstart, Int.zero_add] at hbounds
  exact hbounds

/-- Neither a token nor one of its escapes is in front of the text. -/
theorem Source.offset_nonneg {s : Source} {t : Token} (ht : t ∈ s.lex.tokens) :
    ∀ o ∈ t.offset :: t.escapeOffsets, 0 ≤ o := by
  intro o ho
  rcases List.mem_append.mp ht with ht | ht
  · exact (within ht o ho).1
  · obtain rfl : t = s.eof := List.mem_singleton.mp ht
    obtain rfl : o = s.eof.offset := by simpa [Token.escapeOffsets, eof] using ho
    rw [offset_eof]
    omega

/-- The points of a text, moved behind `cs` and a line feed, are the points that are moved by a line
feed more when one is inserted there. -/
theorem move_behind {s : Source} {t : Token} (ht : t ∈ s.lex.tokens) (cs : List Char) :
    (t.move (.shift 1 1)).move (.behind cs) =
      (t.move (.behind cs)).move ((Motion.shift 1 1).onwards (cs.length + 1)) := by
  have hnonneg := Source.offset_nonneg ht
  rw [Token.move_move, Token.move_move]
  refine Token.move_congr ?_ fun o ho => ?_
  · have h₀ : 0 ≤ t.location.offset := hnonneg t.offset List.mem_cons_self
    simp only [Function.comp_apply, Motion.behind, Motion.shift, Motion.onwards]
    rw [if_pos (by omega), Int.add_right_comm t.location.line, Int.add_right_comm t.location.offset]
  · have h₀ := hnonneg o (List.mem_cons_of_mem _ ho)
    simp only [Function.comp_apply, Motion.behind, Motion.shift, Motion.onwards]
    rw [if_pos (by omega)]
    omega

/-- What lies in front of the insertion stays. -/
theorem move_of_before {s : Source} {t : Token} (ht : t ∈ s.innerTokens) (m : Motion) :
    t.move (m.onwards (s.length + 1)) = t := by
  have hwithin := Source.within ht
  rw [← Token.move_id t, Token.move_move]
  refine Token.move_congr ?_ fun o ho => ?_
  · have h₀ := hwithin t.offset List.mem_cons_self
    exact if_neg (by simp only [Token.offset] at h₀; simp only [id]; omega)
  · have h₀ := hwithin o (List.mem_cons_of_mem _ ho)
    exact if_neg (by simp only [id]; omega)

/-- A line feed at the start of a text. -/
theorem tokens_insert_start (path : String) (ds : List Char) :
    (Source.mk path ('\n' :: ds)).lex.tokens =
      (Source.mk path ds).lex.tokens.map (Token.move (.shift 1 1)) := by
  have hinner : (Source.mk path []).innerTokens = [] := by
    simp [Source.innerTokens, Source.pieceList, pieces]
  have hclosed : (Source.mk path []).Closed := by
    intro t ht
    rw [Source.tokens_lex, hinner, List.nil_append] at ht
    rw [List.mem_singleton.mp ht]
    intro hfault
    cases hfault
  have h := tokens_append hclosed ds
  rwa [hinner] at h

theorem tokens_insert_onwards (path : String) (ds : List Char) :
    (Source.mk path ('\n' :: ds)).lex.tokens =
      (Source.mk path ds).lex.tokens.map (Token.move ((Motion.shift 1 1).onwards 0)) := by
  rw [tokens_insert_start]
  refine List.map_congr_left fun t ht => Token.move_congr ?_ fun o ho => ?_
  · exact (if_pos (Source.offset_nonneg ht t.offset List.mem_cons_self)).symm
  · exact (if_pos (Source.offset_nonneg ht o (List.mem_cons_of_mem _ ho))).symm

/-- A line feed behind a line feed that no string covers. -/
theorem tokens_insert {path : String} {cs : List Char} (h : (Source.mk path cs).Closed)
    (ds : List Char) :
    (Source.mk path (cs ++ '\n' :: '\n' :: ds)).lex.tokens =
      (Source.mk path (cs ++ '\n' :: ds)).lex.tokens.map
        (Token.move ((Motion.shift 1 1).onwards (cs.length + 1))) := by
  rw [tokens_append h, tokens_append h, tokens_insert_start, List.map_append, List.map_map,
    List.map_map]
  have hinner : (Source.mk path cs).innerTokens.map
      (Token.move ((Motion.shift 1 1).onwards (cs.length + 1))) =
        (Source.mk path cs).innerTokens := by
    conv_rhs => rw [← List.map_id (Source.mk path cs).innerTokens]
    exact List.map_congr_left fun t ht => move_of_before ht _
  rw [hinner]
  exact congrArg _ (List.map_congr_left fun t ht => move_behind ht cs)

/-! ## 5. Blank lines -/

/-- The points in front of the start of a line are on earlier lines, the others are not. -/
theorem line_lt_iff_offset_lt {s : Source} {before after : List Char} {l : Location}
    (htext : s.text = before ++ after) (hlast : before = [] ∨ before.getLast? = some '\n')
    (hl : s.Marks l) : l.line < 1 + before.count '\n' ↔ l.offset < before.length := by
  obtain ⟨read, rest, hread, rfl⟩ := hl
  have hline : (Location.start.after read).line = 1 + read.count '\n' :=
    Location.line_after _ _
  rw [hline, Location.offset_start_after]
  rw [htext] at hread
  rcases Nat.lt_or_ge read.length before.length with hlt | hge
  · have hne : before ≠ [] := by
      rintro rfl
      simp at hlt
    have hsplit : before.dropLast ++ ['\n'] = before := by
      have hlast' := hlast.resolve_left hne
      rw [List.getLast?_eq_some_getLast hne] at hlast'
      rw [← Option.some.inj hlast', List.dropLast_concat_getLast]
    have hprefix : read <+: before.dropLast := by
      refine List.prefix_of_prefix_length_le ⟨rest, hread.symm⟩
        ((List.dropLast_prefix before).trans (List.prefix_append before after)) ?_
      rw [List.length_dropLast]
      omega
    have hcount : read.count '\n' < before.count '\n' := by
      have hle := hprefix.sublist.count_le '\n'
      rw [← hsplit, List.count_append]
      simp only [List.count_singleton, beq_self_eq_true, if_true]
      omega
    omega
  · have hprefix : before <+: read :=
      List.prefix_of_prefix_length_le (List.prefix_append before after) ⟨rest, hread.symm⟩ hge
    have hcount := hprefix.sublist.count_le '\n'
    omega

/-- **The motion of what stands behind the start of a line is steady.** -/
theorem steady_onwards {s : Source} {before after : List Char} (htext : s.text = before ++ after)
    (hlast : before = [] ∨ before.getLast? = some '\n') :
    ((Motion.shift 1 1).onwards before.length).Steady s where
  column l := by
    unfold Motion.onwards Motion.shift
    dsimp only
    split <;> rfl
  line {l k} hl hk := by
    have h₁ := line_lt_iff_offset_lt htext hlast hl
    have h₂ := line_lt_iff_offset_lt htext hlast hk
    have hplace (j : Location) : (((Motion.shift 1 1).onwards before.length).place j).line =
        if (before.length : Int) ≤ j.offset then j.line + 1 else j.line := by
      unfold Motion.onwards
      dsimp only
      split <;> rfl
    rw [hplace, hplace]
    split <;> split <;> omega

/-- **Blank lines do not change the reading.**  A line feed that is inserted at the start of a text,
or right behind a line feed that no string covers, leaves the number of resumptions, the diagnostics
and the tree as they are, except that every location and every escape from there on is a line and a
character further on. -/
theorem parse_blank_line (before after path : String) (hreturn : '\r' ∉ before.toList)
    (hpoint : before = "" ∨ before.toList.getLast? = some '\n' ∧
      ∀ t ∈ (Source.ofString (before ++ after) path).lex.tokens, t.kind = .string →
        ¬ t.Covers (before.length - 1)) :
    let p := (Source.ofString (before ++ after) path).lex.parse
    let q := (Source.ofString (before ++ "\n" ++ after) path).lex.parse
    let m := (Motion.shift 1 1).onwards before.length
    q.recoveries = p.recoveries ∧ q.diagnostics = p.diagnostics.map (Diagnostic.move m) ∧
      q.tree = p.tree.move m := by
  intro p q m
  generalize hds : normalizeLineEnds after.toList = ds
  have hs : Source.ofString (before ++ after) path = ⟨path, before.toList ++ ds⟩ := by
    rw [Source.ofString, String.toList_append, normalizeLineEnds_append hreturn, hds]
  have hr : Source.ofString (before ++ "\n" ++ after) path =
      ⟨path, before.toList ++ '\n' :: ds⟩ := by
    have hlist : (before ++ "\n" ++ after).toList = before.toList ++ '\n' :: after.toList := by simp
    rw [Source.ofString, hlist, normalizeLineEnds_append hreturn, ← hds]
    rfl
  have hm : m = (Motion.shift 1 1).onwards before.toList.length := by
    rw [String.length_toList]
  have hlast : before.toList = [] ∨ before.toList.getLast? = some '\n' :=
    hpoint.imp (fun h => by rw [h]; rfl) fun h => h.1
  have hsteady : m.Steady (Source.ofString (before ++ after) path) :=
    hm ▸ steady_onwards (by rw [hs]) hlast
  refine parse_moved hsteady rfl ?_
  rw [hs, hr, hm]
  rcases hpoint with rfl | ⟨hlast, huncovered⟩
  · exact tokens_insert_onwards path ds
  · obtain ⟨cs, hcs⟩ := List.getLast?_eq_some_iff.mp hlast
    have hnewline : (before.length : Int) - 1 = cs.length := by
      rw [← String.length_toList, hcs, List.length_append, List.length_singleton]
      omega
    have htext : before.toList ++ ds = cs ++ '\n' :: ds := by
      rw [hcs, List.append_assoc, List.singleton_append]
    rw [hs, hnewline, htext] at huncovered
    have hclosed : (Source.mk path cs).Closed := closed_of_newline huncovered
    rw [hcs, List.append_assoc, List.append_assoc, List.length_append]
    exact tokens_insert hclosed ds

/-- A clause with a verbatim string, up to the end of its last line. -/
def sampleBefore : String :=
  "class A feature x: S = \"[\na\n]\"\n"

/-- A clause with an escape, and no `end` of the class. -/
def sampleAfter : String :=
  "feature y: C = '%T'"

theorem parse_blank_line_sample :
    let p := (Source.ofString (sampleBefore ++ sampleAfter) "a.e").lex.parse
    let q := (Source.ofString (sampleBefore ++ "\n" ++ sampleAfter) "a.e").lex.parse
    let m := (Motion.shift 1 1).onwards 31
    q.recoveries = p.recoveries ∧ q.diagnostics = p.diagnostics.map (Diagnostic.move m) ∧
      q.tree = p.tree.move m := by
  have hends : ((Source.ofString (sampleBefore ++ sampleAfter) "a.e").lex.tokens.filter
      Token.isString).map Token.endOffset = [30] := by
    cbv
  refine parse_blank_line sampleBefore sampleAfter "a.e" (by decide)
    (.inr ⟨by decide, fun t ht hkind hcovers => ?_⟩)
  have hmem : t.endOffset ∈ ((Source.ofString (sampleBefore ++ sampleAfter) "a.e").lex.tokens.filter
      Token.isString).map Token.endOffset :=
    List.mem_map_of_mem (List.mem_filter.mpr ⟨ht, by simp [Token.isString, hkind]⟩)
  have hend : t.endOffset = 30 := List.mem_singleton.mp (hends ▸ hmem)
  have hlength : (sampleBefore.length : Int) = 31 := rfl
  unfold Token.Covers at hcovers
  omega

end ContractLint
