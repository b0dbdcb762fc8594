/-
# Tokens tile their text

The scan reads a text once, from its first character to its last.  Ten routines decide where a token
ends, each in its own way, and the next token starts where the one before ended.  This file proves
that nothing is lost and nothing is read twice.

`Tiles loc ts cs` says what that means while the scan is under way: the tokens `ts`, each written
out at its own place, with nothing but blanks between them, ARE the characters `cs` from the
location `loc` on.

* `tiles_pieces`: the scan leaves such tokens, wherever it starts;
* `Tiles.location_eq`, `Tiles.slice_eq`: a token stands where its location says, in the whole text;
* `Tiles.pairwise`: a token ends before the next one starts;
* `Tiles.gap_of_uncovered`: a character that no token covers is a blank;
* `lex_tiles`: all of it, for the tokens of every text.
-/
import ContractLint.Proofs.Lexeme
import ContractLint.Proofs.Line
import Mathlib.Data.List.TakeWhile

namespace ContractLint

/-! ## 1. Locations and slices -/

namespace Location

@[simp] theorem offset_next (l : Location) (c : Char) : (l.next c).offset = l.offset + 1 := by
  unfold next
  split <;> rfl

/-- Reading characters moves the offset by their number. -/
theorem offset_after (l : Location) (cs : List Char) :
    (l.after cs).offset = l.offset + cs.length := by
  induction cs generalizing l with
  | nil => simp
  | cons c cs ih =>
    rw [after_cons, ih, offset_next, List.length_cons]
    omega

/-- The offset behind a text that was read from its start. -/
theorem offset_start_after (cs : List Char) : (start.after cs).offset = cs.length := by
  rw [offset_after]
  exact Int.zero_add _

end Location

namespace Source

/-- The characters from one offset up to another. -/
def slice (s : Source) (first last : Int) : List Char :=
  (s.text.take last.toNat).drop first.toNat

/-- The location behind a first part of the text is the one at that part's length. -/
theorem location_length {s : Source} {before rest : List Char} (h : s.text = before ++ rest) :
    s.location before.length = Location.start.after before := by
  rw [location_eq, h, Int.toNat_natCast, List.take_left]

/-- What stands between two parts of the text is the slice between their offsets. -/
theorem slice_middle {s : Source} {before inside rest : List Char}
    (h : s.text = before ++ (inside ++ rest)) :
    s.slice before.length (before.length + inside.length) = inside := by
  have hlast : ((before.length : Int) + inside.length).toNat = (before ++ inside).length := by
    rw [List.length_append]
    omega
  rw [slice, h, hlast, ← List.append_assoc, List.take_left, Int.toNat_natCast, List.drop_left]

end Source

/-! ## 2. Tilings -/

/-- Whether a character may stand between tokens: a space, a tab, a form feed, a vertical tab or a
line feed. -/
def isGap (c : Char) : Bool :=
  isSkipped c || c == '\n'

/-- `Tiles loc ts cs`: the text `cs` at `loc` is the tokens `ts`, in order and each at its own
location, with gaps before, between and behind them. -/
inductive Tiles : Location → List Token → List Char → Prop
  | nil (loc : Location) : Tiles loc [] []
  | gap {loc : Location} {ts : List Token} {c : Char} {cs : List Char} (hc : isGap c = true)
      (rest : Tiles (loc.next c) ts cs) : Tiles loc ts (c :: cs)
  | token {t : Token} {ts : List Token} {cs : List Char} (hkind : t.kind ≠ .eof)
      (htext : t.text.toList ≠ []) (rest : Tiles (t.location.after t.text.toList) ts cs) :
      Tiles t.location (t :: ts) (t.text.toList ++ cs)

/-- A run of gaps may stand before a tiling. -/
theorem Tiles.gaps : ∀ {loc : Location} {ts : List Token} {g cs : List Char},
    (∀ c ∈ g, isGap c = true) → Tiles (loc.after g) ts cs → Tiles loc ts (g ++ cs)
  | _, _, [], _, _, h => h
  | _, _, c :: _, _, hg, h =>
    .gap (hg c List.mem_cons_self) (Tiles.gaps (fun d hd => hg d (List.mem_cons_of_mem c hd)) h)

theorem isGap_of_isIndent {c : Char} (h : isIndent c = true) : isGap c = true := by
  unfold isIndent at h
  unfold isGap isSkipped
  rw [h]
  rfl

/-- A lexeme is a comment without a fault, or a token that the grammar does not pass over. -/
theorem lexeme_comment_or (offset : Int) (c : Char) (cs : List Char) :
    ((lexeme offset c cs).kind = .comment ∧ (lexeme offset c cs).fault = none) ∨
      ((lexeme offset c cs).kind.isTrivia = false ∧ (lexeme offset c cs).kind ≠ .eof) := by
  unfold lexeme
  split
  · exact .inl ⟨rfl, rfl⟩
  right
  split
  · unfold Lexeme.string
    dsimp only
    split
    · unfold Lexeme.verbatim
      split
      · exact ⟨rfl, Kind.noConfusion⟩
      · dsimp only
        split <;> exact ⟨rfl, Kind.noConfusion⟩
    · unfold Lexeme.manifest
      dsimp only
      split <;> exact ⟨rfl, Kind.noConfusion⟩
  split
  · unfold Lexeme.character
    split
    · exact ⟨rfl, Kind.noConfusion⟩
    · split
      · exact ⟨rfl, Kind.noConfusion⟩
      · dsimp only
        unfold Lexeme.characterKind
        split <;> exact ⟨rfl, Kind.noConfusion⟩
  split
  · unfold Lexeme.word
    dsimp only
    cases Keyword.ofText? (c :: cs.takeWhile Lexeme.isWordTail) <;>
      exact ⟨rfl, Kind.noConfusion⟩
  split
  · exact ⟨rfl, Kind.noConfusion⟩
  · unfold Lexeme.operator
    split <;> exact ⟨rfl, Kind.noConfusion⟩

/-- No lexeme is the end of the text. -/
theorem lexeme_kind_ne_eof (offset : Int) (c : Char) (cs : List Char) :
    (lexeme offset c cs).kind ≠ .eof := by
  rcases lexeme_comment_or offset c cs with ⟨h, -⟩ | ⟨-, h⟩
  · rw [h]
    exact Kind.noConfusion
  · exact h

theorem Piece.token_ofLexeme (loc : Location) (text : List Char) (x : Lexeme) :
    (Piece.ofLexeme loc text x).token = some
      { kind := x.kind, text := String.ofList text, location := loc, segments := x.segments,
        fault := x.fault } := rfl

/-- A line start leaves its indentation as a token, or nothing. -/
theorem Piece.token_ofIndent (loc : Location) (indent : List Char) (blank : Bool) :
    (Piece.ofIndent loc indent blank).token =
      if indent = [] ∨ blank = true then none
      else some { kind := .indent, text := String.ofList indent, location := loc } := by
  unfold ofIndent
  dsimp only
  split <;> rfl

/-- **The scan tiles its text.** -/
theorem tiles_pieces (fresh : Bool) (loc : Location) (cs : List Char) :
    Tiles loc ((pieces fresh loc cs).filterMap Piece.token) cs := by
  fun_induction pieces fresh loc cs with
  | case1 fresh loc => exact .nil loc
  | case2 loc c rest indent after blank =>
    rename_i ih
    have hindent : ∀ d ∈ indent, isGap d = true := fun d hd =>
      isGap_of_isIndent (List.mem_takeWhile_imp hd)
    have hsplit : indent ++ after = c :: rest :=
      List.prefix_iff_eq_append.mp (List.takeWhile_prefix isIndent)
    rw [← hsplit, List.filterMap_cons, Piece.token_ofIndent]
    by_cases h : indent = [] ∨ blank = true
    · rw [if_pos h]
      exact Tiles.gaps hindent ih
    · rw [if_neg h]
      have hne : indent ≠ [] := fun h' => h (Or.inl h')
      simpa using Tiles.token
        (t := { kind := .indent, text := String.ofList indent, location := loc })
        Kind.noConfusion (by simpa using hne) (by simpa using ih)
  | case3 loc rest ih => exact .gap rfl ih
  | case4 loc c rest hc hskip ih => exact .gap (by rw [isGap, hskip]; rfl) ih
  | case5 loc c rest hc hskip x text =>
    rename_i ih
    have hsplit : text ++ rest.drop x.taken = c :: rest := by
      rw [List.cons_append, List.take_append_drop]
    rw [← hsplit, List.filterMap_cons, Piece.token_ofLexeme]
    simpa using Tiles.token
      (t := { kind := x.kind, text := String.ofList text, location := loc,
              segments := x.segments, fault := x.fault })
      (lexeme_kind_ne_eof loc.offset c rest) (by simp [text]) (by simpa using ih)

/-! ## 3. Where the tokens of a tiling stand

From here on `before` is what was read when the tiling starts, so that offsets can be compared with
the whole text `before ++ cs`. -/

namespace Tiles

variable {s : Source} {cs : List Char} {loc : Location} {ts : List Token}

/-- No token of a tiling is the end of the text, and none is empty. -/
theorem proper (h : Tiles loc ts cs) : ∀ t ∈ ts, t.kind ≠ .eof ∧ t.text ≠ "" := by
  induction h with
  | nil => exact fun t ht => nomatch ht
  | gap _ _ ih => exact ih
  | @token t ts cs hkind htext _ ih =>
    intro u hu
    rcases List.mem_cons.mp hu with rfl | hu
    · exact ⟨hkind, fun h => htext (by rw [h]; rfl)⟩
    · exact ih u hu

/-- A token starts at or behind the start of its tiling, and ends at or before its end. -/
theorem bounds (h : Tiles loc ts cs) :
    ∀ t ∈ ts, loc.offset ≤ t.offset ∧ t.endOffset ≤ loc.offset + cs.length := by
  induction h with
  | nil => exact fun t ht => nomatch ht
  | @gap loc ts c cs _ _ ih =>
    intro t ht
    have h₁ := ih t ht
    rw [Location.offset_next] at h₁
    rw [List.length_cons]
    omega
  | @token t ts cs _ _ _ ih =>
    have hlength : (t.text.length : Int) = t.text.toList.length := by rw [String.length_toList]
    intro u hu
    rcases List.mem_cons.mp hu with rfl | hu
    · rw [Token.endOffset, Token.offset, List.length_append]
      omega
    · have h₁ := ih u hu
      rw [Location.offset_after] at h₁
      rw [List.length_append]
      omega

/-- **A token ends before the next one starts.** -/
theorem pairwise (h : Tiles loc ts cs) : ts.Pairwise fun t u => t.endOffset ≤ u.offset := by
  induction h with
  | nil => exact .nil
  | gap _ _ ih => exact ih
  | @token t ts cs _ _ rest ih =>
    refine .cons (fun u hu => ?_) ih
    have h₁ := (rest.bounds u hu).1
    rw [Location.offset_after, String.length_toList] at h₁
    exact h₁

/-- **A token's location is the location of its offset.** -/
theorem location_eq (h : Tiles loc ts cs) :
    ∀ before, s.text = before ++ cs → loc = Location.start.after before →
      ∀ t ∈ ts, t.location = s.location t.offset := by
  induction h with
  | nil => exact fun _ _ _ t ht => nomatch ht
  | @gap loc ts c cs _ _ ih =>
    intro before htext hloc
    refine ih (before ++ [c]) (by simp [htext]) ?_
    rw [hloc, Location.after_append]
    rfl
  | @token t ts cs _ _ _ ih =>
    intro before htext hloc u hu
    rcases List.mem_cons.mp hu with rfl | hu
    · have hoffset : u.offset = before.length := by
        rw [Token.offset, hloc, Location.offset_start_after]
      rw [hoffset, Source.location_length htext, hloc]
    · refine ih (before ++ t.text.toList) (by simp [htext]) ?_ u hu
      rw [hloc, Location.after_append]

/-- **A token's text is what stands between its offsets.** -/
theorem slice_eq (h : Tiles loc ts cs) :
    ∀ before, s.text = before ++ cs → loc.offset = before.length →
      ∀ t ∈ ts, t.text.toList = s.slice t.offset t.endOffset := by
  induction h with
  | nil => exact fun _ _ _ t ht => nomatch ht
  | @gap loc ts c cs _ _ ih =>
    intro before htext hloc
    refine ih (before ++ [c]) (by simp [htext]) ?_
    rw [Location.offset_next, hloc, List.length_append, List.length_singleton]
    omega
  | @token t ts cs _ _ _ ih =>
    intro before htext hloc u hu
    rcases List.mem_cons.mp hu with rfl | hu
    · have hoffset : u.offset = before.length := hloc
      rw [Token.endOffset, hoffset, ← String.length_toList, Source.slice_middle htext]
    · refine ih (before ++ t.text.toList) (by simp [htext]) ?_ u hu
      rw [Location.offset_after, hloc, List.length_append]
      omega

/-- **A character that no token covers is a gap.** -/
theorem gap_of_uncovered (h : Tiles loc ts cs) : ∀ (i : Nat) (hi : i < cs.length),
    (∀ t ∈ ts, ¬ (t.offset ≤ loc.offset + i ∧ loc.offset + i < t.endOffset)) →
      isGap cs[i] = true := by
  induction h with
  | nil => exact fun i hi => absurd hi (Nat.not_lt_zero i)
  | @gap loc ts c cs hc _ ih =>
    intro i hi hout
    cases i with
    | zero => exact hc
    | succ i =>
      refine ih i (Nat.lt_of_succ_lt_succ hi) fun t ht => ?_
      have h₁ := hout t ht
      rw [Location.offset_next]
      omega
  | @token t ts cs _ _ _ ih =>
    intro i hi hout
    have hlength : (t.text.length : Int) = t.text.toList.length := by rw [String.length_toList]
    -- the first token covers the characters of its own text, so `i` lies behind it
    have hbehind : t.text.toList.length ≤ i := by
      have h₁ := hout t List.mem_cons_self
      rw [Token.endOffset, Token.offset] at h₁
      omega
    rw [List.getElem_append_right hbehind]
    refine ih (i - t.text.toList.length) _ fun u hu => ?_
    have h₁ := hout u (List.mem_cons_of_mem t hu)
    rw [Location.offset_after]
    omega

end Tiles

/-! ## 4. The tokens of a text -/

namespace Source

/-- The tokens of a source before the one at its end. -/
def innerTokens (s : Source) : List Token :=
  s.pieceList.filterMap Piece.token

theorem tokens_lex (s : Source) : s.lex.tokens = s.innerTokens ++ [s.eof] := rfl

theorem tiles (s : Source) : Tiles Location.start s.innerTokens s.text :=
  tiles_pieces true Location.start s.text

theorem offset_eof (s : Source) : s.eof.offset = s.length :=
  Location.offset_start_after s.text

end Source

/-- The tokens of a text end in front of the token at its end. -/
theorem endOffset_le_length {s : Source} {t : Token} (ht : t ∈ s.innerTokens) :
    t.endOffset ≤ s.length := by
  have h := (s.tiles.bounds t ht).2
  rwa [show Location.start.offset = 0 from rfl, Int.zero_add] at h

theorem length_text_pos {t : Token} (h : t.text ≠ "") : 0 < t.text.length := by
  rw [← String.length_toList]
  exact List.length_pos_of_ne_nil (fun h' => h (String.toList_eq_nil_iff.mp h'))

/-- **Tokens tile their text.**  Behind the tokens of a text stands exactly one token for its end,
empty and at the length of the text.  Every other token is a nonempty slice of the text, at its own
offsets; a token ends before the next one starts, so offsets strictly increase; what no token covers
is blank; and each location is the location of its offset.  The number of characters that a lexeme
asks for is always there, so no routine ends a token behind the text. -/
theorem lex_tiles (raw path : String) :
    let s := Source.ofString raw path
    let ts := s.lex.tokens
    (ts = s.innerTokens ++ [s.eof] ∧
      s.eof.kind = .eof ∧ s.eof.text = "" ∧ s.eof.offset = s.length ∧
      ∀ t ∈ s.innerTokens, t.kind ≠ .eof ∧ t.text ≠ "" ∧
        t.text.toList = s.slice t.offset t.endOffset) ∧
    ts.Pairwise (fun t u => t.endOffset ≤ u.offset) ∧
    ts.Pairwise (fun t u => t.offset < u.offset) ∧
    (∀ (i : Nat) (h : i < s.text.length),
      (∀ t ∈ ts, ¬ (t.offset ≤ i ∧ i < t.endOffset)) →
        s.text[i] ∈ [' ', '\t', '\x0c', '\x0b', '\n']) ∧
    (∀ t ∈ ts, t.location = s.location t.offset) ∧
    ∀ (offset : Int) (c : Char) (cs : List Char), (lexeme offset c cs).taken ≤ cs.length := by
  intro s ts
  have htiles := s.tiles
  have hends : ts.Pairwise (fun t u => t.endOffset ≤ u.offset) := by
    refine List.pairwise_append.mpr ⟨htiles.pairwise, List.pairwise_singleton _ _, ?_⟩
    intro t ht u hu
    rw [List.mem_singleton.mp hu, s.offset_eof]
    exact endOffset_le_length ht
  have hproper : ∀ t ∈ s.innerTokens, t.offset < t.endOffset := by
    intro t ht
    have h := length_text_pos (htiles.proper t ht).2
    rw [Token.endOffset]
    omega
  refine ⟨⟨s.tokens_lex, rfl, rfl, s.offset_eof, fun t ht => ?_⟩, hends, ?_, ?_, ?_,
    lexeme_taken_le⟩
  · have h := htiles.proper t ht
    exact ⟨h.1, h.2, htiles.slice_eq [] rfl rfl t ht⟩
  · refine List.pairwise_append.mpr
      ⟨htiles.pairwise.imp_of_mem fun ht _ h => Int.lt_of_lt_of_le (hproper _ ht) h,
        List.pairwise_singleton _ _, ?_⟩
    intro t ht u hu
    rw [List.mem_singleton.mp hu, s.offset_eof]
    exact Int.lt_of_lt_of_le (hproper t ht) (endOffset_le_length ht)
  · intro i hi hout
    have h : isGap s.text[i] = true := by
      refine htiles.gap_of_uncovered i hi fun t ht => ?_
      rw [show Location.start.offset = 0 from rfl, Int.zero_add]
      exact hout t (List.mem_append_left _ ht)
    simpa [isGap, isSkipped, or_assoc] using h
  · intro t ht
    rcases List.mem_append.mp ht with ht | ht
    · exact htiles.location_eq [] rfl rfl t ht
    · rw [List.mem_singleton.mp ht, s.offset_eof]
      exact (Source.location_length (List.append_nil s.text).symm).symm

end ContractLint
