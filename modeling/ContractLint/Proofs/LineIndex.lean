/-
# Lines and columns index the text

A location has a line, a column and an offset, and four computations have to agree on them: halving
the starts of the lines up to an offset (`Source.location`), these starts (`Source.lineStarts`), the
text of a single line (`Source.lineText`), and the list of all lines, where a final line feed starts
none (`Source.lines`).  They meet at the boundaries: the empty text, an offset at a line feed, the
offset behind the last character, two line feeds in a row.

`Source.exists_line_at` settles all boundaries at once.  It finds the line that an offset is on, with
its start; the line feed at its end is on it, and so is the end of the text.

* `countP_lineStarts`: an offset is on the line whose number is that of the starts up to it;
* `lineStart_location`: the start of its line and its column lead back to it;
* `normalizeLineEnds_withLineEnds`: a text keeps its lines under either other spelling of line ends;
* `positions_index`: the location of an offset leads back to it, and the lines to the text.
-/
import ContractLint.Proofs.LineLayout

namespace ContractLint

/-! ## 1. Line ends -/

/-- A text with `ending` for each of its line feeds. -/
def withLineEnds (ending text : List Char) : List Char :=
  text.flatMap fun c => if c = '\n' then ending else [c]

/-- The two spellings of a line end that are no line feed. -/
def foreignLineEnds : List (List Char) :=
  [['\r', '\n'], ['\r']]

theorem return_notMem_normalizeLineEnds (cs : List Char) : '\r' ∉ normalizeLineEnds cs := by
  fun_induction normalizeLineEnds cs with
  | case1 => exact List.not_mem_nil
  | case2 cs ih =>
    intro h
    rcases List.mem_cons.mp h with h | h
    · cases h
    · exact ih h
  | case3 c cs hpair ih =>
    intro h
    rcases List.mem_cons.mp h with h | h
    · split at h
      · cases h
      · rename_i hc
        exact hc h.symm
    · exact ih h

/-- A carriage return in front of anything but a line feed is a line end. -/
theorem normalizeLineEnds_return {cs : List Char} (h : cs.head? ≠ some '\n') :
    normalizeLineEnds ('\r' :: cs) = '\n' :: normalizeLineEnds cs := by
  cases cs with
  | nil => rfl
  | cons c cs =>
    rw [normalizeLineEnds]
    · rfl
    · rintro rest - hcs
      cases hcs
      exact h rfl

/-- **Either other spelling of the line ends is read as line feeds.** -/
theorem normalizeLineEnds_withLineEnds {ending : List Char} (hending : ending ∈ foreignLineEnds)
    {text : List Char} (h : '\r' ∉ text) :
    normalizeLineEnds (withLineEnds ending text) = text := by
  induction text with
  | nil => rfl
  | cons c cs ih =>
    have hc : '\r' ∉ [c] := fun hmem => h (List.mem_cons.mpr (.inl (List.mem_singleton.mp hmem)))
    have ih := ih fun hmem => h (List.mem_cons_of_mem c hmem)
    rw [withLineEnds, List.flatMap_cons, ← withLineEnds]
    split
    · rename_i hline
      subst hline
      simp only [foreignLineEnds, List.mem_cons, List.not_mem_nil, or_false] at hending
      rcases hending with rfl | rfl
      · exact congrArg ('\n' :: ·) ih
      · -- what follows a line end starts with a carriage return or with a character of the text
        refine (normalizeLineEnds_return ?_).trans (congrArg ('\n' :: ·) ih)
        cases cs with
        | nil => simp [withLineEnds]
        | cons d ds => by_cases hd : d = '\n' <;> simp [withLineEnds, hd]
    · rw [normalizeLineEnds_append hc, ih]
      rfl

/-! ## 2. Columns -/

namespace Location

/-- Reading on a line moves the column by the number of characters. -/
theorem column_after {cs : List Char} (h : '\n' ∉ cs) (l : Location) :
    (l.after cs).column = l.column + cs.length := by
  induction cs generalizing l with
  | nil => exact (Int.add_zero _).symm
  | cons c cs ih =>
    have hc : c ≠ '\n' := fun hc => h (hc ▸ List.mem_cons_self)
    have hnext : (l.next c).column = l.column + 1 := by rw [next, if_neg hc]
    rw [after_cons, ih (fun hmem => h (List.mem_cons_of_mem c hmem)), hnext, List.length_cons]
    omega

end Location

/-- A line starts in the first column. -/
theorem IsLine.column_front {text front line back : List Char} (h : IsLine text front line back) :
    (Location.start.after front).column = 1 := by
  rcases h.starts with rfl | ⟨before, rfl⟩
  · rfl
  · rw [Location.after_append]
    rfl

/-! ## 3. The line of an offset -/

namespace Source

/-- **Every offset is on a line**: behind its start, and at its end at the latest. -/
theorem exists_line_at {s : Source} {offset : Nat} (h : offset ≤ s.length) :
    ∃ front line back k, IsLine s.text front line back ∧ k ≤ line.length ∧
      offset = front.length + k ∧ front.count '\n' = (s.text.take offset).count '\n' ∧
      s.lineStart? (((s.text.take offset).count '\n' + 1 : Nat) : Int) = some front.length := by
  have hcount : s.text.count '\n' =
      (s.text.take offset).count '\n' + (s.text.drop offset).count '\n' := by
    rw [← List.count_append, List.take_append_drop]
  have hpieces : (s.text.take offset).count '\n' < s.pieces.length := by
    rw [pieces, Text.length_splitAt]
    omega
  obtain ⟨front, back, hline, hnumber, hstart, -⟩ :=
    exists_isLine_of_piece (List.getElem?_eq_getElem hpieces)
  generalize s.pieces[(s.text.take offset).count '\n'] = line at hline
  have htext := hline.text_eq
  have hlength : s.length = front.length + (line.length + back.length) := by
    rw [length, htext, List.length_append, List.length_append]
  -- The offset is not in front of the line: the text before it would lack the line feed that ends
  -- `front`.
  have hfront : front.length ≤ offset := by
    rcases hline.starts with hnil | ⟨before, hbefore⟩
    · rw [hnil]
      exact Nat.zero_le _
    · by_contra hlt
      rw [hbefore, List.length_append, List.length_singleton] at hlt
      have htake : s.text.take offset = before.take offset := by
        rw [htext, hbefore, List.append_assoc, List.take_append_of_le_length (by omega)]
      have hle := ((List.take_sublist offset before).count_le '\n')
      rw [htake, hbefore, List.count_append] at hnumber
      simp at hnumber
      omega
  -- Nor is it behind the line: the text before it would have the line feed that `back` starts with.
  have hline' : offset ≤ front.length + line.length := by
    rcases hline.ends with hnil | ⟨rest, hrest⟩
    · rw [hnil, List.length_nil, Nat.add_zero] at hlength
      omega
    · by_contra hlt
      have hprefix : front ++ (line ++ ['\n']) <+: s.text.take offset := by
        refine List.prefix_take_iff.mpr ⟨⟨rest, ?_⟩, ?_⟩
        · rw [htext, hrest]
          simp only [List.append_assoc, List.singleton_append]
        · simp only [List.length_append, List.length_singleton]
          omega
      have hle := hprefix.sublist.count_le '\n'
      simp only [List.count_append, List.count_singleton_self] at hle
      omega
  exact ⟨front, line, back, offset - front.length, hline, by omega, by omega, hnumber, hstart⟩

/-! ## 4. Locations -/

/-- The line of an offset is one more than the line feeds before it. -/
theorem line_location (s : Source) (offset : Nat) :
    (s.location offset).line = (((s.text.take offset).count '\n' + 1 : Nat) : Int) := by
  rw [location_eq, Int.toNat_natCast, Location.line_after]
  simp only [Location.start]
  omega

/-- **The start of a line and a column on it lead back to the offset.** -/
theorem lineStart_location {s : Source} {offset : Nat} (h : offset ≤ s.length) :
    ∃ start, s.lineStart? (s.location offset).line = some start ∧
      start + (s.location offset).column - 1 = offset := by
  obtain ⟨front, line, back, k, hline, hk, rfl, hnumber, hstart⟩ := exists_line_at h
  refine ⟨front.length, ?_, ?_⟩
  · rw [line_location, hstart]
  · have hinside : '\n' ∉ line.take k := fun hmem => hline.inside (List.mem_of_mem_take hmem)
    rw [hline.location hk, Location.after_append, Location.column_after hinside,
      hline.column_front, List.length_take_of_le hk]
    omega

theorem offset_location {s : Source} {offset : Nat} (h : offset ≤ s.length) :
    (s.location offset).offset = offset := by
  rw [location_eq, Int.toNat_natCast, Location.offset_start_after, List.length_take_of_le h]

/-- An offset outside the text is taken for the nearer end. -/
theorem location_clamp (s : Source) (offset : Int) :
    s.location offset = s.location (max 0 (min offset s.length)) := by
  have hclamp : (max 0 (min (max 0 (min offset s.length)) (s.length : Int))).toNat =
      (max 0 (min offset (s.length : Int))).toNat := by omega
  rw [location, location, hclamp]

/-- Line and column go up with the offset. -/
theorem location_before {s : Source} {o p : Nat} (h : o < p) (hp : p ≤ s.length) :
    (s.location o).Before (s.location p) := by
  refine Marks.before_of_offset_lt (s.marks_location o) (s.marks_location p) ?_
  rw [offset_location (Nat.le_of_lt (Nat.lt_of_lt_of_le h hp)), offset_location hp]
  exact Int.ofNat_lt.mpr h

/-! ## 5. The starts of the lines -/

/-- **Searching the starts finds the line**: up to an offset there is one start more than line
feeds. -/
theorem countP_lineStarts {s : Source} {offset : Nat} (h : offset ≤ s.length) :
    s.lineStarts.countP (· ≤ offset) = (s.text.take offset).count '\n' + 1 := by
  have hlength : (s.text.take offset).length = offset := List.length_take_of_le h
  have happend := startsBehind_append 0 (s.text.take offset) (s.text.drop offset)
  rw [List.take_append_drop, hlength, Nat.zero_add] at happend
  have hfront : (startsBehind 0 (s.text.take offset)).countP (· ≤ offset) =
      (s.text.take offset).count '\n' := by
    rw [List.countP_eq_length.mpr fun start hmem => ?_, length_startsBehind]
    have hbound := (bounds_of_mem_startsBehind start hmem).2
    exact decide_eq_true (by omega)
  have hback : (startsBehind offset (s.text.drop offset)).countP (· ≤ offset) = 0 := by
    refine List.countP_eq_zero.mpr fun start hmem => ?_
    have hbound := (bounds_of_mem_startsBehind start hmem).1
    simpa using hbound
  rw [lineStarts, List.countP_cons, happend, List.countP_append, hfront, hback,
    if_pos (decide_eq_true (Nat.zero_le offset))]

theorem line_location_eq_countP {s : Source} {offset : Nat} (h : offset ≤ s.length) :
    (s.location offset).line = (s.lineStarts.countP (· ≤ offset) : Nat) := by
  rw [line_location, countP_lineStarts h]

/-! ## 6. Lines -/

/-- **The lines, joined again, are the text**, but for a final line feed. -/
theorem joinWith_lines (s : Source) :
    Text.joinWith '\n' s.lines ++ (if s.text.getLast? = some '\n' then ['\n'] else []) =
      s.text := by
  rw [lines_eq, pieces]
  split
  · rename_i hlast
    obtain ⟨before, hbefore⟩ := List.getLast?_eq_some_iff.mp hlast
    have hsplit : Text.splitAt '\n' s.text = Text.splitAt '\n' before ++ [[]] := by
      rw [hbefore, Text.splitAt_append]
      rfl
    rw [hsplit, List.dropLast_concat, Text.joinWith_splitAt, hbefore]
  · rw [List.append_nil, Text.joinWith_splitAt]

end Source

/-- **Positions are a faithful index of the text.**  The text of a source has no carriage return; a
raw text that spells all line ends in one of the two other ways is read as if it had line feeds.
Each offset of the text is on the line whose number is one more than that of the line feeds before
it, which is also the number of line starts up to it; the start of that line and the column lead
back to the offset, so lines and columns go up with offsets, and an offset outside the text counts
as the nearer end.  The location that halving finds is the one to which reading the text leads.  The
starts are those of the pieces between the line feeds, a line reaches from its start to the next
line feed, the lines are the pieces but for an empty one behind a final line feed, and the lines,
cut out one by one, are the text. -/
theorem positions_index (raw path : String) :
    let s := Source.ofString raw path
    '\r' ∉ s.text ∧
    (∀ text, '\r' ∉ text → ∀ ending ∈ foreignLineEnds,
      raw.toList = withLineEnds ending text → s.text = text) ∧
    (∀ offset : Nat, offset ≤ s.length →
      (s.location offset).offset = offset ∧
      (s.location offset).line = 1 + (s.text.take offset).count '\n' ∧
      (s.location offset).line = s.lineStarts.countP (· ≤ offset) ∧
      ∃ start, s.lineStart? (s.location offset).line = some start ∧
        start + (s.location offset).column - 1 = offset) ∧
    (∀ o p : Nat, o < p → p ≤ s.length → (s.location o).Before (s.location p)) ∧
    (∀ offset : Int, s.location offset = s.location (max 0 (min offset s.length))) ∧
    (∀ offset : Int, s.location offset = Location.start.after (s.text.take offset.toNat)) ∧
    s.lineStarts = Source.startsFrom 0 s.pieces ∧
    (∀ i start : Nat, s.lineStart? ((i + 1 : Nat) : Int) = some start →
      s.lineText ((i + 1 : Nat) : Int) = (s.text.drop start).takeWhile (· != '\n')) ∧
    s.lines = (List.range s.lineCount).map (fun i => s.lineText ((i + 1 : Nat) : Int)) ∧
    s.lines = (if s.text.getLast? = some '\n' then s.pieces.dropLast else s.pieces) ∧
    Text.joinWith '\n' s.lines ++ (if s.text.getLast? = some '\n' then ['\n'] else []) =
      s.text := by
  intro s
  refine ⟨return_notMem_normalizeLineEnds _, ?_, ?_, fun o p => Source.location_before,
    s.location_clamp, s.location_eq, s.lineStarts_eq, fun i start => Source.lineText_eq_takeWhile,
    rfl, s.lines_eq, s.joinWith_lines⟩
  · intro text htext ending hending hraw
    exact (congrArg normalizeLineEnds hraw).trans (normalizeLineEnds_withLineEnds hending htext)
  · intro offset hoffset
    refine ⟨Source.offset_location hoffset, ?_, Source.line_location_eq_countP hoffset,
      Source.lineStart_location hoffset⟩
    rw [s.line_location]
    omega

end ContractLint
