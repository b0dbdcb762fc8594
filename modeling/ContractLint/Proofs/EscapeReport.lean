/-
# Escapes are judged where they stand

The escape rule is not told what a malformed escape was found in.  It looks for the token at the
place of the finding, and a comment there makes a warning of it.  So the rule is right if every
finding is inside the token of its own piece and inside no other one, however far the scan guessed a
spoilt literal to reach.

* `lexeme_signs`: the malformed escapes of a lexeme stand at percent signs of its text, in order;
* `Piece.Scanned.ordered`, `Source.ordered_findings`: the findings of a piece, and from them those
  of a text, are in the order of the text;
* `escapes_judged`: the rule reports the malformed escapes of the scan, each judged by the one
  token that covers it.
-/
import ContractLint.Proofs.Lookup
import ContractLint.Proofs.Segmentation
import ContractLint.Rule.Escape

namespace ContractLint

open List (Forall₂)

/-! ## 1. Malformed escapes of a lexeme -/

namespace AtSigns

variable {offset : Int} {content : List Char} {offsets : List Int}

theorem nil (offset : Int) (content : List Char) : AtSigns offset content [] :=
  ⟨.nil, fun _ ho => absurd ho List.not_mem_nil⟩

/-- What is put behind the content leaves the signs where they are. -/
theorem append (h : AtSigns offset content offsets) (more : List Char) :
    AtSigns offset (content ++ more) offsets := by
  refine ⟨h.1, fun o ho => ?_⟩
  obtain ⟨k, rfl, hk⟩ := h.2 o ho
  obtain ⟨hlt, -⟩ := List.getElem?_eq_some_iff.mp hk
  exact ⟨k, rfl, by rwa [List.getElem?_append_left hlt]⟩

/-- Signs that all stand in a first part of the content are signs of that part. -/
theorem take {n : Nat} (h : AtSigns offset content offsets) (hn : ∀ o ∈ offsets, o < offset + n) :
    AtSigns offset (content.take n) offsets := by
  refine ⟨h.1, fun o ho => ?_⟩
  obtain ⟨k, rfl, hk⟩ := h.2 o ho
  have hlt := hn _ ho
  exact ⟨k, rfl, by rwa [List.getElem?_take_of_lt (by omega)]⟩

/-- An escape at a sign, malformed or not, and the signs behind it. -/
theorem consScan {c : Char} {rest : List Char} (hc : c = '%')
    (h : AtSigns (offset + 1 + (Escape.scan rest).taken) (rest.drop (Escape.scan rest).taken)
      offsets) :
    AtSigns offset (c :: rest)
      ((Segment.ofScan offset rest (Escape.scan rest)).issue?.toList.map EscapeIssue.offset ++
        offsets) := by
  have htaken := Escape.scan_taken_le rest
  have hsplit : c :: rest =
      (c :: rest.take (Escape.scan rest).taken) ++ rest.drop (Escape.scan rest).taken := by
    rw [List.cons_append, List.take_append_drop]
  have hlength : offset + 1 + (Escape.scan rest).taken =
      offset + (c :: rest.take (Escape.scan rest).taken).length := by
    rw [List.length_cons, List.length_take_of_le htaken]
    omega
  rw [hlength] at h
  rw [hsplit]
  refine (h.cons (by rw [hc]; rfl)).sublist ?_
  cases hissue : (Segment.ofScan offset rest (Escape.scan rest)).issue? with
  | none => exact List.sublist_cons_self _ _
  | some i =>
    have hoffset := Segment.offset?_of_issue? hissue
    rw [Segment.offset?_ofScan] at hoffset
    obtain rfl := Option.some.inj hoffset
    exact List.Sublist.refl _

end AtSigns

namespace Lexeme

theorem commentIssues_signs (offset : Int) (cs : List Char) :
    AtSigns offset cs ((commentIssues offset cs).map EscapeIssue.offset) := by
  fun_induction commentIssues offset cs with
  | case1 offset => exact .nil offset []
  | case2 offset c rest hc s ih =>
    rw [List.map_append]
    exact .consScan hc.1 ih
  | case3 offset c rest hc ih =>
    show AtSigns offset ([c] ++ rest) _
    exact ih.shift

theorem comment_signs (offset : Int) {cs : List Char} (h : cs.head? = some '-') :
    AtSigns offset ('-' :: cs) ((comment offset cs).issues.map EscapeIssue.offset) := by
  obtain ⟨more, rfl⟩ := List.head?_eq_some_iff.mp h
  have hline : restOfLine ('-' :: more) = '-' :: restOfLine more := rfl
  have hsigns := (commentIssues_signs (offset + 2) (restOfLine more)).append
    (more.drop (restOfLine more).length)
  rw [restOfLine_append_drop] at hsigns
  unfold comment
  rw [hline]
  show AtSigns offset (['-', '-'] ++ more) _
  exact hsigns.shift

theorem string_signs (offset : Int) (cs : List Char) :
    AtSigns offset ('"' :: cs) ((string offset cs).issues.map EscapeIssue.offset) := by
  unfold string
  dsimp only
  split
  · -- a verbatim string has no escapes
    unfold verbatim
    split
    · exact .nil _ _
    · dsimp only
      split <;> exact .nil _ _
  · obtain ⟨⟨tail, hline, -⟩, hdecode⟩ := segments_content (offset + 1) (restOfLine cs)
    rw [issues_manifest]
    generalize ContractLint.segments (· == '"') (offset + 1) (restOfLine cs) = segs at *
    have hcut := segmentation_decode (offset + 1) (Segment.sources segs)
    rw [hdecode] at hcut
    have hsigns := ((hcut.signs.sublist (Segment.sublist_issues segs)).append tail).append
      (cs.drop (restOfLine cs).length)
    rw [← hline, restOfLine_append_drop] at hsigns
    show AtSigns offset (['"'] ++ cs) _
    exact hsigns.shift

theorem character_signs (offset : Int) (cs : List Char) :
    AtSigns offset ('\'' :: cs) ((character offset cs).issues.map EscapeIssue.offset) := by
  unfold character
  split
  · exact .nil _ _
  rename_i c rest hline
  split
  · exact .nil _ _
  have hsigns : AtSigns (offset + 1) (c :: rest)
      ((Segment.issues [(characterContent (offset + 1) c rest).1]).map EscapeIssue.offset) := by
    unfold characterContent
    split
    · rename_i hc
      have hscan := AtSigns.consScan hc (.nil (offset + 1 + 1 + (Escape.scan rest).taken) _)
      rw [List.append_nil] at hscan
      dsimp only
      rwa [Segment.issues, List.filterMap_cons, List.filterMap_nil]
    · exact .nil _ _
  rw [← hline] at hsigns
  have htext := hsigns.append (cs.drop (restOfLine cs).length)
  rw [restOfLine_append_drop] at htext
  show AtSigns offset (['\''] ++ cs) _
  exact htext.shift

end Lexeme

/-- Only comments, strings and characters have malformed escapes. -/
theorem lexeme_issues_cases (offset : Int) (c : Char) (cs : List Char) :
    (c = '-' ∧ cs.head? = some '-' ∧ lexeme offset c cs = .comment offset cs) ∨
      (c = '"' ∧ lexeme offset c cs = .string offset cs) ∨
      (c = '\'' ∧ lexeme offset c cs = .character offset cs) ∨
      (lexeme offset c cs).issues = [] := by
  unfold lexeme
  split
  · rename_i hdashes
    exact .inl ⟨hdashes.1, hdashes.2, rfl⟩
  split
  · exact .inr (.inl ⟨‹_›, rfl⟩)
  split
  · exact .inr (.inr (.inl ⟨‹_›, rfl⟩))
  refine .inr (.inr (.inr ?_))
  split
  · rfl
  split
  · rfl
  · unfold Lexeme.operator
    split <;> rfl

/-- **The malformed escapes of a lexeme stand at percent signs of its text**, in the order of the
text. -/
theorem lexeme_signs (offset : Int) (c : Char) (cs : List Char) :
    AtSigns offset (c :: cs.take (lexeme offset c cs).taken)
      ((lexeme offset c cs).issues.map EscapeIssue.offset) := by
  have hsigns : AtSigns offset (c :: cs) ((lexeme offset c cs).issues.map EscapeIssue.offset) := by
    rcases lexeme_issues_cases offset c cs with
      ⟨rfl, hdash, hx⟩ | ⟨rfl, hx⟩ | ⟨rfl, hx⟩ | hnone
    · rw [hx]
      exact Lexeme.comment_signs offset hdash
    · rw [hx]
      exact Lexeme.string_signs offset cs
    · rw [hx]
      exact Lexeme.character_signs offset cs
    · rw [hnone]
      exact .nil offset _
  rw [← List.take_succ_cons]
  refine hsigns.take fun o ho => ?_
  obtain ⟨i, hi, rfl⟩ := List.mem_map.mp ho
  have hbounds := issue_mem_lexeme offset c cs i hi
  omega

/-- A character that is one numeric escape is well formed. -/
theorem Lexeme.issues_of_numericEscape {offset : Int} {cs : List Char}
    (h : (character offset cs).kind = .numericEscape) : (character offset cs).issues = [] := by
  unfold character at h ⊢
  split
  · rfl
  rename_i c rest hline
  simp only [hline] at h
  split
  · rfl
  · rename_i hc
    rw [if_neg hc] at h
    generalize characterContent (offset + 1) c rest = content at h ⊢
    obtain ⟨seg, n⟩ := content
    cases seg with
    | plain | escape => rfl
    | malformed => cases h

/-- What has a malformed escape is a comment, a string or a character. -/
theorem kind_of_mem_issues {offset : Int} {c : Char} {cs : List Char} {i : EscapeIssue}
    (hi : i ∈ (lexeme offset c cs).issues) :
    (lexeme offset c cs).kind ∈ [.string, .character, .comment] := by
  rcases lexeme_issues_cases offset c cs with ⟨-, -, hx⟩ | ⟨-, hx⟩ | ⟨-, hx⟩ | hnone
  · rw [hx]
    simp [Lexeme.comment]
  · rw [hx, Lexeme.kind_string]
    exact List.mem_cons_self
  · rw [hx] at hi ⊢
    rcases Lexeme.kind_character offset cs with hkind | hkind
    · rw [hkind]
      exact List.mem_cons_of_mem _ List.mem_cons_self
    · rw [Lexeme.issues_of_numericEscape hkind] at hi
      exact absurd hi List.not_mem_nil
  · rw [hnone] at hi
    exact absurd hi List.not_mem_nil

/-! ## 2. Findings of pieces and of texts -/

/-- `f` is found before `g`, at a smaller offset. -/
def Finding.Precedes (f g : Finding) : Prop :=
  f.location.offset < g.location.offset

/-- The finding of a lexeme's issue is at the offset of the issue. -/
theorem offset_of_mem_issues {loc : Location} {c : Char} {rest : List Char} {i : EscapeIssue}
    (hi : i ∈ (lexeme loc.offset c rest).issues) :
    (loc.after ((c :: rest.take (lexeme loc.offset c rest).taken).take
      (i.offset - loc.offset).toNat)).offset = i.offset := by
  have hbounds := issue_mem_lexeme loc.offset c rest i hi
  have hlength := length_lexeme_text loc.offset c rest
  exact offset_of_issue hbounds.1 (by rw [hlength]; omega)

/-- **The findings of a piece are in the order of the text.** -/
theorem Piece.Scanned.ordered {p : Piece} (h : p.Scanned) :
    p.findings.Pairwise Finding.Precedes := by
  cases h with
  | indent loc indent blank =>
    rw [findings_ofIndent_eq]
    split
    · exact List.pairwise_singleton _ _
    · exact .nil
  | lexeme loc c rest =>
    refine List.pairwise_map.mpr ?_
    refine (List.pairwise_map.mp (lexeme_signs loc.offset c rest).1).imp_of_mem ?_
    intro i j hi hj hlt
    rw [Finding.Precedes, offset_of_mem_issues hi, offset_of_mem_issues hj]
    exact hlt

/-- **A malformed escape is at a percent sign of the token of its piece**, and knows whether that
token is a comment. -/
theorem Piece.Scanned.escape {p : Piece} (h : p.Scanned) {f : Finding} (hf : f ∈ p.findings)
    {fault : EscapeFault} {inComment : Bool} (hcause : f.cause = .escape fault inComment) :
    ∃ t, p.token = some t ∧ t.kind ∈ [.string, .character, .comment] ∧
      (inComment = true ↔ t.kind = .comment) ∧
      ∃ k : Nat, f.location.offset = t.offset + k ∧ t.text.toList[k]? = some '%' := by
  cases h with
  | indent loc indent blank =>
    rw [findings_ofIndent_eq] at hf
    split at hf
    · rw [List.mem_singleton.mp hf] at hcause
      cases hcause
    · cases hf
  | lexeme loc c rest =>
    obtain ⟨i, hi, rfl⟩ := List.mem_map.mp hf
    obtain ⟨-, rfl⟩ := FindingCause.escape.inj hcause
    obtain ⟨k, hk, hsign⟩ :=
      (lexeme_signs loc.offset c rest).2 i.offset (List.mem_map_of_mem hi)
    refine ⟨_, rfl, kind_of_mem_issues hi, beq_iff_eq, k, ?_, ?_⟩
    · rw [offset_of_mem_issues hi, hk]
      rfl
    · rw [String.toList_ofList]
      exact hsign

/-- **The findings of a text are in the order of the text.**  Those of two pieces are inside their
tokens, and the tokens are apart. -/
theorem Source.ordered_findings (s : Source) : s.lex.findings.Pairwise Finding.Precedes := by
  refine List.pairwise_flatMap.mpr ⟨fun p hp => (scanned_of_mem_pieces p hp).ordered, ?_⟩
  have hends := List.pairwise_filterMap.mp s.tiles.pairwise
  refine hends.imp_of_mem fun {p q} hp hq hpq f hf g hg => ?_
  obtain ⟨t, ht, hcovers⟩ := (scanned_of_mem_pieces p hp).covers f hf
  obtain ⟨u, hu, hcovers'⟩ := (scanned_of_mem_pieces q hq).covers g hg
  have hend := hpq t ht u hu
  unfold Token.Covers at hcovers hcovers'
  unfold Finding.Precedes
  omega

/-! ## 3. The judgement -/

namespace EscapeFault

/-- How a message may end: with a letter `e`, an apostrophe or a bracket. -/
def lastCharacters : List Char := ['e', '\'', ')']

/-- A message ends with fixed words, whatever it quotes in front of them. -/
theorem exists_message_eq (fault : EscapeFault) :
    ∃ front back, fault.message = front ++ back ∧
      ∃ c ∈ lastCharacters, back.toList.getLast? = some c := by
  cases fault with
  | lineEnd => exact ⟨"'%' at end", " of line", by decide, 'e', by decide, by decide⟩
  | unknown letter => exact ⟨s!"unknown escape '%{letter}", "'", rfl, '\'', by decide, by decide⟩
  | unterminated =>
    exact ⟨"unterminated numeric escape", " (missing closing '/')", by decide, ')', by decide,
      by decide⟩
  | empty => exact ⟨"empty numeric", " escape", by decide, 'e', by decide, by decide⟩
  | badDigit digit radix body =>
    exact ⟨_, "/'", rfl, '\'', by decide, by decide⟩
  | outOfRange code =>
    exact ⟨s!"character code {code}", " out of range", rfl, 'e', by decide, by decide⟩

/-- **A fault's message does not say where the fault is**, so that it does not end as the messages
of comments do. -/
theorem message_ne (fault : EscapeFault) (before : String) :
    fault.message ≠ before ++ " in comment" := by
  intro h
  obtain ⟨front, back, hmessage, c, hc, hlast⟩ := fault.exists_message_eq
  have hcomment : " in comment".toList.getLast? = some 't' := by decide
  have hends := congrArg (fun message => message.toList.getLast?) (hmessage.symm.trans h)
  simp only [String.toList_append, List.getLast?_append, hlast, hcomment, Option.some_or,
    Option.some.injEq] at hends
  rw [hends] at hc
  revert hc
  decide

end EscapeFault

namespace EscapeRule

/-- The finding `d` of the scan stands in the token `t` and is reported as `e`. -/
structure Judges (s : Source) (t : Token) (d e : Diagnostic) : Prop where
  /-- No other token covers the place. -/
  only : s.lex.tokens.filter (fun u => decide (u.Covers d.location.offset)) = [t]
  kind : t.kind ∈ [.string, .character, .comment]
  /-- A percent sign of the text is at the place. -/
  sign : ∃ k : Nat, d.location.offset = k ∧ s.text[k]? = some '%'
  /-- The report is a warning in a comment and an error elsewhere; all else is the scan's. -/
  judged : e = { d with severity := if t.kind = .comment then .warning else .error }
  /-- The message says so too. -/
  named : t.kind = .comment ↔ ∃ before, d.message = before ++ " in comment"

/-- A character of a slice is one of the text. -/
theorem getElem?_of_slice {s : Source} {first last : Int} {k : Nat} {c : Char}
    (h : (s.slice first last)[k]? = some c) : s.text[first.toNat + k]? = some c := by
  rw [Source.slice, List.getElem?_drop, List.getElem?_take] at h
  split at h
  · exact h
  · cases h

/-- **The rule judges every malformed escape by its token.** -/
theorem exists_judges {s : Source} {tree : Tree} {d : Diagnostic} (hd : d ∈ s.lex.diagnostics)
    (hrule : d.rule = .invalidEscape) :
    ∃ t, Judges s t d { d with severity := severity ⟨s.lex, tree⟩ d } := by
  obtain ⟨f, hf, rfl⟩ := List.mem_map.mp hd
  obtain ⟨p, hp, hfp⟩ := List.mem_flatMap.mp hf
  have hscanned := scanned_of_mem_pieces p hp
  obtain ⟨cause, location⟩ := f
  cases cause with
  | spaceIndent =>
    have hne : RuleId.tabExpected ≠ RuleId.invalidEscape := by decide
    exact absurd hrule hne
  | escape fault inComment =>
    obtain ⟨t, ht, hkind, hcomment, k, hk, hsign⟩ := hscanned.escape hfp rfl
    obtain ⟨u, hu, hcovers⟩ := hscanned.covers _ hfp
    obtain rfl : t = u := Option.some.inj (ht.symm.trans hu)
    have hinner : t ∈ s.innerTokens := List.mem_filterMap.mpr ⟨p, hp, ht⟩
    have hmem : t ∈ s.lex.tokens := List.mem_append_left _ hinner
    have hfound := Lexed.tokenAt?_of_covers s.pairwise_ends hmem hcovers
    refine ⟨t, filter_covers_eq s.pairwise_ends hmem hcovers, hkind, ?_, ?_, ?_⟩
    · have hstart := (s.tiles.bounds t hinner).1
      rw [show Location.start.offset = 0 from rfl] at hstart
      rw [s.tiles.slice_eq [] rfl rfl t hinner] at hsign
      refine ⟨t.offset.toNat + k, ?_, getElem?_of_slice hsign⟩
      rw [Finding.location_diagnostic, hk]
      omega
    · rw [severity, EscapeRule.inComment, Finding.location_diagnostic, hfound]
      simp [Rulebook.commentSeverity, Rulebook.invalidEscape]
    · rw [← hcomment]
      cases inComment with
      | true => exact ⟨fun _ => ⟨fault.message, rfl⟩, fun _ => rfl⟩
      | false => exact ⟨Bool.noConfusion, fun ⟨before, h⟩ => absurd h (fault.message_ne before)⟩

end EscapeRule

/-- **Escape findings get the severity of their context.**  For every text, the findings of the scan
are in strictly increasing order of their offsets; and the escape rule reports the malformed escapes
among them, in this order, each at a percent sign inside exactly one token, which is a string, a
character or a comment.  The reports are those of the scan but for their severity: a warning in a
comment, which the message names, and an error elsewhere. -/
theorem escapes_judged (raw path : String) (tree : Tree) :
    let s := Source.ofString raw path
    let escapes := s.lex.diagnostics.filter fun d => d.rule == .invalidEscape
    s.lex.diagnostics.Pairwise (fun d e => d.location.offset < e.location.offset) ∧
      Forall₂ (fun d e => ∃ t, EscapeRule.Judges s t d e) escapes
        (EscapeRule.check ⟨s.lex, tree⟩) := by
  intro s escapes
  refine ⟨List.pairwise_map.mpr ?_, ?_⟩
  · refine s.ordered_findings.imp fun {f g} hlt => ?_
    rw [Finding.location_diagnostic, Finding.location_diagnostic]
    exact hlt
  · rw [EscapeRule.check, List.forall₂_map_right_iff, List.forall₂_same]
    intro d hd
    obtain ⟨hmem, hrule⟩ := List.mem_filter.mp hd
    exact EscapeRule.exists_judges hmem (beq_iff_eq.mp hrule)

end ContractLint
