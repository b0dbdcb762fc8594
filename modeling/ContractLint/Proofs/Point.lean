/-
# Points of a text

A location has three coordinates, and reports are sorted by two of them.  For arbitrary locations
that would lose information: nothing keeps two offsets from claiming the same line and column.  For
the POINTS of a text it does not.  Reading a character moves a location forward in the order of
lines and columns (`Location.Before`), so among the points of one text line and column determine the
offset (`Source.Marks.eq_of_line_column`), and a point that is not behind another in a report is not
behind it in the text (`Source.Marks.offset_le`).

The scan makes locations only by reading on from where it stands, so whatever it reports is a point
of its text: tokens (`Source.marks_token`) and findings (`Source.marks_finding`).
-/
import ContractLint.Proofs.Progress

namespace ContractLint

/-! ## 1. The order of lines and columns -/

namespace Location

/-- `l` stands on an earlier line than `m`, or further left on the same line. -/
def Before (l m : Location) : Prop :=
  l.line < m.line ∨ (l.line = m.line ∧ l.column < m.column)

theorem Before.trans {l m n : Location} (hlm : l.Before m) (hmn : m.Before n) : l.Before n := by
  unfold Before at *
  omega

theorem before_next (l : Location) (c : Char) : l.Before (l.next c) := by
  unfold next
  split
  · exact .inl (Int.lt_succ l.line)
  · exact .inr ⟨rfl, Int.lt_succ l.column⟩

/-- Reading anything moves a location forward. -/
theorem before_after (l : Location) : ∀ {cs : List Char}, cs ≠ [] → l.Before (l.after cs)
  | [], h => absurd rfl h
  | [c], _ => l.before_next c
  | c :: d :: cs, _ => (l.before_next c).trans ((l.next c).before_after (List.cons_ne_nil d cs))

/-- Lines are counted on from where reading starts. -/
theorem line_le_line_after (l : Location) (cs : List Char) : l.line ≤ (l.after cs).line := by
  cases cs with
  | nil => exact Int.le_refl _
  | cons c cs =>
    rcases l.before_after (List.cons_ne_nil c cs) with h | h
    · exact Int.le_of_lt h
    · exact Int.le_of_eq h.1

end Location

/-! ## 2. Points -/

namespace Source

/-- `l` is a point of the text: what reading a first part of it leads to. -/
def Marks (s : Source) (l : Location) : Prop :=
  ∃ before rest, s.text = before ++ rest ∧ l = Location.start.after before

variable {s : Source} {l m : Location}

/-- The location of any offset is a point, since an offset outside the text counts as its nearer
end. -/
theorem marks_location (s : Source) (offset : Int) : s.Marks (s.location offset) :=
  ⟨s.text.take offset.toNat, s.text.drop offset.toNat, (List.take_append_drop _ _).symm,
    s.location_eq offset⟩

namespace Marks

/-- **A point is the location of its own offset**, which lies in the text. -/
theorem coherent (h : s.Marks l) :
    0 ≤ l.offset ∧ l.offset ≤ s.length ∧ l = s.location l.offset := by
  obtain ⟨before, rest, htext, rfl⟩ := h
  have hlength : s.length = before.length + rest.length := by
    rw [length, htext, List.length_append]
  rw [Location.offset_start_after]
  refine ⟨by omega, by omega, ?_⟩
  rw [location_length htext]

theorem line_pos (h : s.Marks l) : 0 < l.line := by
  obtain ⟨before, -, -, rfl⟩ := h
  have hline := Location.start.line_le_line_after before
  have hstart : Location.start.line = 1 := rfl
  omega

/-- Of two points, the one with the greater offset comes later in the order of lines and columns. -/
theorem before_of_offset_lt (hl : s.Marks l) (hm : s.Marks m) (h : l.offset < m.offset) :
    l.Before m := by
  obtain ⟨before, rest, htext, rfl⟩ := hl
  obtain ⟨before', rest', htext', rfl⟩ := hm
  rw [Location.offset_start_after, Location.offset_start_after] at h
  have hprefix : before <+: before' := by
    refine List.prefix_of_prefix_length_le ⟨rest, htext.symm⟩ ⟨rest', htext'.symm⟩ ?_
    omega
  obtain ⟨between, rfl⟩ := hprefix
  have hne : between ≠ [] := by
    rintro rfl
    simp at h
  rw [Location.after_append]
  exact Location.before_after _ hne

/-- A point that another one is not before has no greater offset. -/
theorem offset_le (hl : s.Marks l) (hm : s.Marks m) (h : ¬ m.Before l) : l.offset ≤ m.offset := by
  by_contra hlt
  exact h (before_of_offset_lt hm hl (Int.not_le.mp hlt))

/-- **Line and column determine a point.** -/
theorem eq_of_line_column (hl : s.Marks l) (hm : s.Marks m) (hline : l.line = m.line)
    (hcolumn : l.column = m.column) : l = m := by
  have hnot : ¬ l.Before m ∧ ¬ m.Before l := by
    unfold Location.Before
    omega
  have hoffset : l.offset = m.offset :=
    Int.le_antisymm (offset_le hl hm hnot.2) (offset_le hm hl hnot.1)
  rw [hl.coherent.2.2, hm.coherent.2.2, hoffset]

end Marks

/-! ## 3. What the scan locates -/

/-- Every token stands at a point of the text, the one at its end included. -/
theorem marks_token {t : Token} (ht : t ∈ s.lex.tokens) : s.Marks t.location := by
  rw [s.tokens_lex] at ht
  rcases List.mem_append.mp ht with ht | ht
  · rw [s.tiles.location_eq [] rfl rfl t ht]
    exact s.marks_location t.offset
  · rw [List.mem_singleton.mp ht]
    exact ⟨s.text, [], (List.append_nil _).symm, rfl⟩

/-- Tokens stand behind each other. -/
theorem pairwise_offset (s : Source) : s.innerTokens.Pairwise fun t u => t.offset < u.offset := by
  refine s.tiles.pairwise.imp_of_mem fun {t u} ht _ hends => ?_
  have hpos := length_text_pos (s.tiles.proper t ht).2
  unfold Token.endOffset at hends
  omega

/-- **No two tokens that the grammar reads stand at one point.** -/
theorem nodup_location_tokens (s : Source) :
    ((Cursor.ofLexed s.lex).tokens.map Token.location).Nodup := by
  rw [tokens_ofLexed]
  refine List.pairwise_map.mpr ((s.pairwise_offset.filter _).imp fun {t u} hlt heq => ?_)
  have hoffset : t.offset = u.offset := congrArg Location.offset heq
  omega

/-- Reading a first part of what is left leads to a point. -/
theorem marks_after {before rest inside : List Char} (htext : s.text = before ++ rest)
    (h : inside <+: rest) : s.Marks ((Location.start.after before).after inside) := by
  obtain ⟨rest', rfl⟩ := h
  exact ⟨before ++ inside, rest', by rw [htext, List.append_assoc],
    (Location.after_append _ _ _).symm⟩

end Source

/-- The findings of a line start are noticed inside its indentation. -/
theorem Piece.findings_ofIndent {loc : Location} {indent : List Char} {blank : Bool} {f : Finding}
    (hf : f ∈ (Piece.ofIndent loc indent blank).findings) :
    ∃ inside, inside <+: indent ∧ f.location = loc.after inside := by
  unfold ofIndent at hf
  dsimp only at hf
  split at hf
  · cases hf
  · dsimp only at hf
    split at hf
    · rw [List.mem_singleton.mp hf]
      exact ⟨_, List.takeWhile_prefix _, rfl⟩
    · cases hf

/-- The findings of a lexeme are noticed inside its text. -/
theorem Piece.findings_ofLexeme {loc : Location} {text : List Char} {x : Lexeme} {f : Finding}
    (hf : f ∈ (Piece.ofLexeme loc text x).findings) :
    ∃ inside, inside <+: text ∧ f.location = loc.after inside := by
  obtain ⟨issue, -, rfl⟩ := List.mem_map.mp hf
  exact ⟨_, List.take_prefix _ _, rfl⟩

/-- The findings of the scan are noticed at points of the text, wherever the scan starts. -/
theorem marks_of_mem_pieces {s : Source} (fresh : Bool) (loc : Location) (cs : List Char) :
    ∀ before, s.text = before ++ cs → loc = Location.start.after before →
      ∀ p ∈ pieces fresh loc cs, ∀ f ∈ p.findings, s.Marks f.location := by
  fun_induction pieces fresh loc cs with
  | case1 => exact fun _ _ _ p hp => absurd hp List.not_mem_nil
  | case2 loc c rest indent after blank ih =>
    intro before htext hloc p hp f hf
    have hsplit : indent ++ after = c :: rest :=
      List.prefix_iff_eq_append.mp (List.takeWhile_prefix isIndent)
    rcases List.mem_cons.mp hp with rfl | hp
    · obtain ⟨inside, hinside, hlocation⟩ := Piece.findings_ofIndent hf
      rw [hlocation, hloc]
      exact Source.marks_after htext (hinside.trans (List.takeWhile_prefix _))
    · refine ih (before ++ indent) ?_ ?_ p hp f hf
      · rw [htext, ← hsplit, List.append_assoc]
      · rw [hloc, Location.after_append]
  | case3 loc rest ih =>
    intro before htext hloc
    refine ih (before ++ ['\n']) (by simp [htext]) ?_
    rw [hloc, Location.after_append]
    rfl
  | case4 loc c rest hc hskip ih =>
    intro before htext hloc
    refine ih (before ++ [c]) (by simp [htext]) ?_
    rw [hloc, Location.after_append]
    rfl
  | case5 loc c rest hc hskip x text ih =>
    intro before htext hloc p hp f hf
    have hsplit : text ++ rest.drop x.taken = c :: rest := by
      rw [List.cons_append, List.take_append_drop]
    rcases List.mem_cons.mp hp with rfl | hp
    · obtain ⟨inside, hinside, hlocation⟩ := Piece.findings_ofLexeme hf
      rw [hlocation, hloc]
      exact Source.marks_after htext (hinside.trans ⟨_, hsplit⟩)
    · refine ih (before ++ text) ?_ ?_ p hp f hf
      · rw [htext, ← hsplit, List.append_assoc]
      · rw [hloc, Location.after_append]

/-- Every finding of the scan is at a point of the text. -/
theorem Source.marks_finding {s : Source} {f : Finding} (hf : f ∈ s.lex.findings) :
    s.Marks f.location := by
  obtain ⟨p, hp, hf⟩ := List.mem_flatMap.mp hf
  exact marks_of_mem_pieces true Location.start s.text [] rfl rfl p hp f hf

end ContractLint
