/-
# How tokens are spelled

A token keeps the text it was read from, and messages and trees copy that text.  This file says what
the text can be.  Every piece of a scan is the indentation of a line or a lexeme (`Piece.Scanned`),
so a fact about the spelling of lexemes is a fact about all tokens of all texts:

* a keyword is spelled as that keyword, in some letter case (`ofText?_of_keyword`), and an identifier
  as a word that is none (`isName_text`);
* only strings reach over the end of a line (`isString_of_newline`), since every other lexeme is
  closed by it.
-/
import ContractLint.Proofs.LineEnd

namespace ContractLint

/-! ## 1. Pieces -/

/-- The pieces that a scan leaves. -/
inductive Piece.Scanned : Piece → Prop
  | indent (loc : Location) (indent : List Char) (blank : Bool)
      (h : ∀ c ∈ indent, isIndent c = true) : Scanned (ofIndent loc indent blank)
  | lexeme (loc : Location) (c : Char) (rest : List Char) (h : c ≠ '\n') :
      Scanned (ofLexeme loc (c :: rest.take (lexeme loc.offset c rest).taken)
        (lexeme loc.offset c rest))

theorem scanned_of_mem_pieces {fresh : Bool} {loc : Location} {cs : List Char} :
    ∀ p ∈ pieces fresh loc cs, p.Scanned := by
  fun_induction pieces fresh loc cs with
  | case1 => exact fun p hp => absurd hp List.not_mem_nil
  | case2 loc c rest indent after blank ih =>
    intro p hp
    rcases List.mem_cons.mp hp with rfl | hp
    · exact .indent loc indent blank fun d hd => List.mem_takeWhile_imp hd
    · exact ih p hp
  | case3 loc rest ih => exact ih
  | case4 loc c rest hc hskip ih => exact ih
  | case5 loc c rest hc hskip x text ih =>
    intro p hp
    rcases List.mem_cons.mp hp with rfl | hp
    · exact .lexeme loc c rest hc
    · exact ih p hp

/-- What holds of the end of a text, of indentation and of every lexeme holds of every token. -/
theorem Source.token_cases {P : Token → Prop} {s : Source} (heof : P s.eof)
    (hindent : ∀ (loc : Location) (indent : List Char), (∀ c ∈ indent, isIndent c = true) →
      P { kind := .indent, text := String.ofList indent, location := loc })
    (hlexeme : ∀ (loc : Location) (c : Char) (rest : List Char), c ≠ '\n' →
      let x := lexeme loc.offset c rest
      P { kind := x.kind, text := String.ofList (c :: rest.take x.taken), location := loc,
          segments := x.segments, fault := x.fault }) :
    ∀ t ∈ s.lex.tokens, P t := by
  intro t ht
  rcases List.mem_append.mp ht with ht | ht
  · obtain ⟨p, hp, hpt⟩ := List.mem_filterMap.mp ht
    cases scanned_of_mem_pieces p hp with
    | indent loc indent blank h =>
      rw [Piece.token_ofIndent] at hpt
      split at hpt
      · cases hpt
      · exact Option.some.inj hpt ▸ hindent loc indent h
    | lexeme loc c rest h => exact Option.some.inj hpt ▸ hlexeme loc c rest h
  · exact List.mem_singleton.mp ht ▸ heof

/-! ## 2. Words -/

theorem Lexeme.kind_string (offset : Int) (cs : List Char) :
    (Lexeme.string offset cs).kind = .string := by
  unfold Lexeme.string Lexeme.verbatim Lexeme.manifest
  dsimp only
  repeat' split
  all_goals rfl

theorem Lexeme.kind_character (offset : Int) (cs : List Char) :
    (Lexeme.character offset cs).kind = .character ∨
      (Lexeme.character offset cs).kind = .numericEscape := by
  unfold Lexeme.character
  split
  · exact .inl rfl
  split
  · exact .inl rfl
  · dsimp only
    unfold Lexeme.characterKind
    split
    · exact .inr rfl
    · exact .inl rfl

/-- A word: a letter, and letters, digits and underscores behind it. -/
def IsWord (cs : List Char) : Prop :=
  ∃ c tail, cs = c :: tail ∧ c.isAlpha = true ∧ ∀ d ∈ tail, Lexeme.isWordTail d = true

/-- A name: a word that is no keyword. -/
structure IsName (cs : List Char) : Prop where
  word : IsWord cs
  free : Keyword.ofText? cs = none

/-- Whether tokens of this kind are read as words. -/
def Kind.isWord : Kind → Bool
  | identifier | keyword _ => true
  | _ => false

/-- Identifiers and keywords are words. -/
theorem lexeme_of_isWord {offset : Int} {c : Char} {cs : List Char}
    (h : (lexeme offset c cs).kind.isWord = true) :
    c.isAlpha = true ∧ lexeme offset c cs = .word c cs := by
  unfold lexeme at h ⊢
  by_cases hdash : c = '-' ∧ cs.head? = some '-'
  · rw [if_pos hdash] at h
    cases h
  by_cases hquote : c = '"'
  · rw [if_neg hdash, if_pos hquote, Lexeme.kind_string] at h
    cases h
  rw [if_neg hdash, if_neg hquote] at h ⊢
  by_cases hsingle : c = '\''
  · rw [if_pos hsingle] at h
    rcases Lexeme.kind_character offset cs with hkind | hkind <;> rw [hkind] at h <;> cases h
  rw [if_neg hsingle] at h ⊢
  by_cases halpha : c.isAlpha = true
  · exact ⟨halpha, if_pos halpha⟩
  rw [if_neg halpha] at h
  split at h
  · cases h
  · unfold Lexeme.operator at h
    split at h <;> cases h

/-- The text of a word is its letter with all that continues it. -/
theorem take_word (c : Char) (cs : List Char) :
    cs.take (Lexeme.word c cs).taken = cs.takeWhile Lexeme.isWordTail :=
  (List.prefix_iff_eq_take.mp (List.takeWhile_prefix _)).symm

/-- **Identifiers and keywords are spelled as words.** -/
theorem Source.isWord_text {s : Source} :
    ∀ t ∈ s.lex.tokens, t.kind.isWord = true → IsWord t.text.toList := by
  refine token_cases (by intro h; cases h) (by intro _ _ _ h; cases h) fun loc c rest _ h => ?_
  obtain ⟨halpha, hword⟩ := lexeme_of_isWord h
  refine ⟨c, _, String.toList_ofList, halpha, ?_⟩
  rw [hword, take_word]
  exact fun d hd => List.mem_takeWhile_imp hd

/-- The kind of a word says which keyword its text is. -/
theorem Source.kind_of_isWord {s : Source} :
    ∀ t ∈ s.lex.tokens, t.kind.isWord = true →
      t.kind = ((Keyword.ofText? t.text.toList).map Kind.keyword).getD .identifier := by
  refine token_cases (by intro h; cases h) (by intro _ _ _ h; cases h) fun loc c rest _ h => ?_
  dsimp only
  rw [String.toList_ofList, (lexeme_of_isWord h).2, take_word]
  rfl

/-- **A keyword is spelled as that keyword.** -/
theorem Source.ofText?_of_keyword {s : Source} {w : Keyword} :
    ∀ t ∈ s.lex.tokens, t.kind = .keyword w → Keyword.ofText? t.text.toList = some w := by
  intro t ht hkind
  have h := kind_of_isWord t ht (by rw [hkind]; rfl)
  rw [hkind] at h
  cases hw : Keyword.ofText? t.text.toList with
  | none => simp [hw] at h
  | some v => simpa [hw] using h.symm

/-- **An identifier is spelled as no keyword.** -/
theorem Source.isName_text {s : Source} :
    ∀ t ∈ s.lex.tokens, t.kind = .identifier → IsName t.text.toList := by
  intro t ht hkind
  refine ⟨isWord_text t ht (by rw [hkind]; rfl), ?_⟩
  have h := kind_of_isWord t ht (by rw [hkind]; rfl)
  rw [hkind] at h
  cases hw : Keyword.ofText? t.text.toList with
  | none => rfl
  | some v => simp [hw] at h

/-! ## 3. Line feeds -/

/-- Only strings can be open verbatim strings. -/
theorem fault_of_ne_quote (offset : Int) {c : Char} (hc : c ≠ '"') (cs : List Char) :
    (lexeme offset c cs).fault ≠ some .unterminatedVerbatim := by
  unfold lexeme
  rw [if_neg hc]
  split
  · intro h
    cases h
  split
  · unfold Lexeme.character
    dsimp only
    repeat' split
    all_goals simp
  split
  · intro h
    cases h
  split
  · intro h
    cases h
  · unfold Lexeme.operator
    split <;> simp

/-- A lexeme with a line feed is a string. -/
theorem string_of_newline_mem {offset : Int} {c : Char} {cs : List Char}
    (h : '\n' ∈ cs.take (lexeme offset c cs).taken) : (lexeme offset c cs).kind = .string := by
  by_cases hc : c = '"'
  · subst hc
    exact Lexeme.kind_string offset cs
  · -- The lexeme ends in front of the first line feed, so its text has none.
    obtain ⟨line, rest, hcs, hline⟩ := List.eq_append_cons_of_mem (List.mem_of_mem_take h)
    have hx := lexeme_append offset c (fault_of_ne_quote offset hc line) rest
    rw [hcs, hx, List.take_append_of_le_length (lexeme_taken_le offset c line)] at h
    exact absurd (List.mem_of_mem_take h) hline

/-- **Only strings reach over the end of a line.** -/
theorem Source.isString_of_newline {s : Source} :
    ∀ t ∈ s.lex.tokens, '\n' ∈ t.text.toList → t.kind = .string := by
  refine token_cases (by intro h; cases h) (fun loc indent h hmem => ?_)
    fun loc c rest hc hmem => ?_
  · have := h '\n' (by simpa using hmem)
    cases this
  · refine @string_of_newline_mem loc.offset c rest ?_
    simpa [hc.symm] using hmem

end ContractLint
