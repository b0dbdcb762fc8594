/-
# The token at an offset

The lookup keeps the tokens that start at an offset or in front of it and asks the last of them
whether it reaches so far.  That one token decides is a matter of the layout: tokens start one
behind the other and do not overlap, so an earlier token ended before the last one started.  The
token at the end of the text is empty and covers nothing; it answers for the one offset behind the
last character, where the token before it may end.

* `exists_split_of_covers`, `filter_covers_eq`: a token that covers an offset is the only one;
* `bisectAt?_eq`: on starts in order, halving and keeping find the same token;
* `tokenAt?_eq_some_iff`: which token the lookup gives;
* `tokenAt?_inverts_layout`: for every text and every offset.
-/
import ContractLint.Proofs.Bisection
import ContractLint.Proofs.Decoding

namespace ContractLint

/-! ## 1. Tokens that lie apart -/

section

variable {ts : List Token} {t : Token} {offset : Int}

/-- When tokens end before the next one starts, one of them covers an offset and the others lie in
front of it or behind it. -/
theorem exists_split_of_covers (hends : ts.Pairwise fun t u => t.endOffset ≤ u.offset)
    (ht : t ∈ ts) (hcovers : t.Covers offset) :
    ∃ before after, ts = before ++ t :: after ∧
      (∀ u ∈ before, u.offset ≤ offset ∧ u.endOffset ≤ offset) ∧
      ∀ u ∈ after, offset < u.offset := by
  obtain ⟨before, after, rfl⟩ := List.append_of_mem ht
  obtain ⟨-, hafter, hbefore⟩ := List.pairwise_append.mp hends
  unfold Token.Covers at hcovers
  refine ⟨before, after, rfl, fun u hu => ?_, fun u hu => ?_⟩
  · have hend := hbefore u hu t List.mem_cons_self
    have hnonneg : u.offset ≤ u.endOffset := by
      unfold Token.endOffset
      omega
    omega
  · have hend := (List.pairwise_cons.mp hafter).1 u hu
    omega

/-- **No other token covers an offset that a token covers.** -/
theorem filter_covers_eq (hends : ts.Pairwise fun t u => t.endOffset ≤ u.offset) (ht : t ∈ ts)
    (hcovers : t.Covers offset) : ts.filter (fun u => decide (u.Covers offset)) = [t] := by
  obtain ⟨before, after, rfl, hbefore, hafter⟩ := exists_split_of_covers hends ht hcovers
  have hfront : before.filter (fun u => decide (u.Covers offset)) = [] := by
    refine List.filter_eq_nil_iff.mpr fun u hu hcovers' => ?_
    have hbefore := hbefore u hu
    have hlt := (of_decide_eq_true hcovers').2
    omega
  have hback : after.filter (fun u => decide (u.Covers offset)) = [] := by
    refine List.filter_eq_nil_iff.mpr fun u hu hcovers' => ?_
    have hafter := hafter u hu
    have hle := (of_decide_eq_true hcovers').1
    omega
  rw [List.filter_append, hfront, List.nil_append, List.filter_cons_of_pos (by simpa using hcovers),
    hback]

/-- **The search by start offsets finds the token that covers an offset.** -/
theorem Lexed.tokenAt?_of_covers {x : Lexed}
    (hends : x.tokens.Pairwise fun t u => t.endOffset ≤ u.offset) (ht : t ∈ x.tokens)
    (hcovers : t.Covers offset) : x.tokenAt? offset = some t := by
  obtain ⟨before, after, hsplit, hbefore, hafter⟩ := exists_split_of_covers hends ht hcovers
  have hrun : x.tokens.takeWhile (fun u => decide (u.offset ≤ offset)) = before ++ [t] := by
    rw [hsplit, List.takeWhile_append_of_pos fun u hu => decide_eq_true (hbefore u hu).1,
      List.takeWhile_cons_of_pos (by simpa using hcovers.1)]
    cases after with
    | nil => rfl
    | cons u after =>
      have hlt := hafter u List.mem_cons_self
      rw [List.takeWhile_cons_of_neg (by simpa using hlt)]
  have hlt := hcovers.2
  unfold tokenAt?
  rw [hrun, List.getLast?_concat]
  exact if_pos (by omega)

end

/-- The tokens of a text end before the next one starts, and all before its end. -/
theorem Source.pairwise_ends (s : Source) :
    s.lex.tokens.Pairwise fun t u => t.endOffset ≤ u.offset := by
  refine List.pairwise_append.mpr ⟨s.tiles.pairwise, List.pairwise_singleton _ _, ?_⟩
  intro t ht u hu
  rw [List.mem_singleton.mp hu, s.offset_eof]
  exact endOffset_le_length ht

/-! ## 2. Halving -/

theorem takeWhile_eq_take {α : Type} {p : α → Bool} {as : List α} {r : Nat}
    (hfront : ∀ a ∈ as.take r, p a = true) (hback : ∀ a ∈ as.drop r, p a = false) :
    as.takeWhile p = as.take r := by
  conv_lhs => rw [← List.take_append_drop r as]
  rw [List.takeWhile_append_of_pos hfront]
  cases hdrop : as.drop r with
  | nil => rw [List.takeWhile_nil, List.append_nil]
  | cons a rest =>
    have ha : p a = false := hback a (hdrop ▸ List.mem_cons_self)
    rw [List.takeWhile_cons_of_neg (by simp [ha]), List.append_nil]

namespace Lexed

/-- The lookup by halving: the token in front of the first one that starts behind the offset, if
its own interval reaches so far.  The interval of an empty token has one offset. -/
def bisectAt? (x : Lexed) (offset : Int) : Option Token :=
  match bisection (x.tokens.map Token.offset) offset 0 x.tokens.length with
  | 0 => none
  | n + 1 => (x.tokens[n]?).filter fun t =>
    decide (t.offset ≤ offset ∧ offset < max t.endOffset (t.offset + 1))

/-- **Halving and keeping find the same token**, when the tokens start one behind the other. -/
theorem bisectAt?_eq {x : Lexed} (hsorted : x.tokens.Pairwise fun t u => t.offset < u.offset)
    (offset : Int) : x.bisectAt? offset = x.tokenAt? offset := by
  have hstarts := List.pairwise_map.mpr hsorted
  have h := encloses_bisection hstarts (.whole (x.tokens.map Token.offset) offset)
  rw [List.length_map] at h
  unfold bisectAt? tokenAt?
  generalize bisection (x.tokens.map Token.offset) offset 0 x.tokens.length = r at h ⊢
  obtain ⟨-, hlength, hfront, hback⟩ := h
  rw [List.length_map] at hlength
  rw [← List.map_take, List.forall_mem_map] at hfront
  rw [← List.map_drop, List.forall_mem_map] at hback
  have hkept : x.tokens.takeWhile (fun t => decide (t.offset ≤ offset)) = x.tokens.take r :=
    takeWhile_eq_take (fun t ht => decide_eq_true (hfront t ht))
      fun t ht => decide_eq_false (Int.not_le.mpr (hback t ht))
  rw [hkept, List.getLast?_take]
  cases r with
  | zero => rfl
  | succ n =>
    have hn : n < x.tokens.length := hlength
    have hle : x.tokens[n].offset ≤ offset :=
      hfront _ (List.mem_take_iff_getElem.mpr ⟨n, by omega, rfl⟩)
    simp only [Nat.succ_ne_zero, if_false, Nat.add_sub_cancel, List.getElem?_eq_getElem hn,
      Option.some_or, Option.filter_some, hle, true_and, decide_eq_true_eq]

end Lexed

/-! ## 3. The lookup in a text -/

namespace Source

variable {s : Source} {offset : Int}

theorem offset_lt_endOffset {t : Token} (ht : t ∈ s.innerTokens) : t.offset < t.endOffset := by
  have hlength := length_text_pos (s.tiles.proper t ht).2
  unfold Token.endOffset
  omega

/-- The tokens of a text start one behind the other. -/
theorem pairwise_starts (s : Source) : s.lex.tokens.Pairwise fun t u => t.offset < u.offset := by
  refine List.pairwise_append.mpr ⟨?_, List.pairwise_singleton _ _, fun t ht u hu => ?_⟩
  · refine s.tiles.pairwise.imp_of_mem fun ht _ hend => ?_
    exact Int.lt_of_lt_of_le (offset_lt_endOffset ht) hend
  · rw [List.mem_singleton.mp hu, s.offset_eof]
    exact Int.lt_of_lt_of_le (offset_lt_endOffset ht) (endOffset_le_length ht)

/-- No token reaches behind the text. -/
theorem not_covers_of_length_le {t : Token} (ht : t ∈ s.lex.tokens) (h : s.length ≤ offset) :
    ¬ t.Covers offset := by
  intro ⟨_, hlt⟩
  rcases List.mem_append.mp ht with ht | ht
  · have hend := endOffset_le_length ht
    omega
  · rw [List.mem_singleton.mp ht, Token.endOffset, s.offset_eof] at hlt
    simp only [eof, String.length_empty] at hlt
    omega

/-- No token reaches in front of the text. -/
theorem not_covers_of_neg {t : Token} (ht : t ∈ s.lex.tokens) (h : offset < 0) :
    ¬ t.Covers offset := by
  intro ⟨hle, _⟩
  rcases List.mem_append.mp ht with ht | ht
  · have hstart := (s.tiles.bounds t ht).1
    rw [show Location.start.offset = 0 from rfl] at hstart
    omega
  · rw [List.mem_singleton.mp ht, s.offset_eof] at hle
    omega

/-- **The lookup gives the token that covers an offset**, and the end of the text for the offset
behind the last character. -/
theorem tokenAt?_eq_some_iff {t : Token} : s.lex.tokenAt? offset = some t ↔
    t ∈ s.lex.tokens ∧ t.Covers offset ∨ offset = s.length ∧ t = s.eof := by
  constructor
  · intro h
    unfold Lexed.tokenAt? at h
    split at h
    · cases h
    rename_i u hlast
    split at h
    · rename_i hlt
      obtain rfl := Option.some.inj h
      have hkept := List.mem_of_getLast? hlast
      have hle : u.offset ≤ offset := by simpa using List.mem_takeWhile_imp hkept
      have hmem : u ∈ s.lex.tokens := (List.takeWhile_sublist _).subset hkept
      rcases List.mem_append.mp hmem with hinner | heof
      · have hown := offset_lt_endOffset hinner
        exact .inl ⟨hmem, hle, by omega⟩
      · obtain rfl := List.mem_singleton.mp heof
        have hend : s.eof.endOffset = s.eof.offset := by
          simp [Token.endOffset, eof]
        have hoffset := s.offset_eof
        exact .inr ⟨by omega, rfl⟩
    · cases h
  · rintro (⟨hmem, hcovers⟩ | ⟨rfl, rfl⟩)
    · exact Lexed.tokenAt?_of_covers s.pairwise_ends hmem hcovers
    · have hall : ∀ t ∈ s.lex.tokens, decide (t.offset ≤ (s.length : Int)) = true := by
        intro t ht
        rcases List.mem_append.mp ht with ht | ht
        · have hlt := offset_lt_endOffset ht
          have hle := endOffset_le_length ht
          exact decide_eq_true (by omega)
        · rw [List.mem_singleton.mp ht, s.offset_eof]
          exact decide_eq_true (Int.le_refl _)
      unfold Lexed.tokenAt?
      rw [List.takeWhile_eq_self_iff.mpr hall, s.tokens_lex, List.getLast?_concat]
      have hoffset := s.offset_eof
      exact if_pos (by omega)

/-- The lookup gives nothing where no token covers the offset, the end of the text apart. -/
theorem tokenAt?_eq_none (hout : ∀ t ∈ s.lex.tokens, ¬ t.Covers offset)
    (hend : offset ≠ s.length) : s.lex.tokenAt? offset = none := by
  refine Option.eq_none_iff_forall_ne_some.mpr fun t h => ?_
  rcases tokenAt?_eq_some_iff.mp h with ⟨ht, hcovers⟩ | ⟨hoffset, -⟩
  · exact hout t ht hcovers
  · exact hend hoffset

/-- Where no token covers an offset of the text there is a blank. -/
theorem isGap_of_not_covers {k : Nat} (hk : k < s.length)
    (hout : ∀ t ∈ s.lex.tokens, ¬ t.Covers k) : ∃ c ∈ s.text[k]?, isGap c = true := by
  refine ⟨s.text[k], List.getElem?_eq_getElem hk, s.tiles.gap_of_uncovered k hk fun t ht => ?_⟩
  rw [show Location.start.offset = 0 from rfl, Int.zero_add]
  exact hout t (List.mem_append_left _ ht)

end Source

/-- **The lookup inverts the layout of tokens.**  For every text and every offset, the halving
lookup and the one that keeps tokens agree.  The token that covers the offset is the only one, and
it is found.  At the end of the text no token covers the offset, and the token of the end is found.
At every other offset that no token covers nothing is found; such an offset lies in front of the
text, behind it or at a blank. -/
theorem tokenAt?_inverts_layout (raw path : String) (offset : Int) :
    let s := Source.ofString raw path
    let x := s.lex
    x.bisectAt? offset = x.tokenAt? offset ∧
    (∀ t ∈ x.tokens, t.Covers offset →
      x.tokens.filter (fun u => decide (u.Covers offset)) = [t] ∧ x.tokenAt? offset = some t) ∧
    (offset = s.length →
      (∀ t ∈ x.tokens, ¬ t.Covers offset) ∧ x.tokenAt? offset = some s.eof) ∧
    ((∀ t ∈ x.tokens, ¬ t.Covers offset) → offset ≠ s.length →
      x.tokenAt? offset = none ∧
        (offset < 0 ∨ s.length < offset ∨
          ∃ k : Nat, offset = k ∧ ∃ c ∈ s.text[k]?, isGap c = true)) ∧
    (offset < 0 ∨ s.length < offset → x.tokenAt? offset = none) := by
  intro s x
  refine ⟨Lexed.bisectAt?_eq s.pairwise_starts offset, fun t ht hcovers => ?_, ?_, ?_, ?_⟩
  · exact ⟨filter_covers_eq s.pairwise_ends ht hcovers,
      Source.tokenAt?_eq_some_iff.mpr (.inl ⟨ht, hcovers⟩)⟩
  · intro hoffset
    exact ⟨fun t ht => Source.not_covers_of_length_le ht (by omega),
      Source.tokenAt?_eq_some_iff.mpr (.inr ⟨hoffset, rfl⟩)⟩
  · intro hout hend
    refine ⟨Source.tokenAt?_eq_none hout hend, ?_⟩
    by_cases hneg : offset < 0
    · exact .inl hneg
    obtain ⟨k, rfl⟩ := Int.eq_ofNat_of_zero_le (Int.not_lt.mp hneg)
    by_cases hk : k < s.length
    · exact .inr (.inr ⟨k, rfl, Source.isGap_of_not_covers hk hout⟩)
    · exact .inr (.inl (by omega))
  · rintro (hneg | hbehind)
    · exact Source.tokenAt?_eq_none (fun t ht => Source.not_covers_of_neg ht hneg) (by omega)
    · exact Source.tokenAt?_eq_none
        (fun t ht => Source.not_covers_of_length_le ht (by omega)) (by omega)

end ContractLint
