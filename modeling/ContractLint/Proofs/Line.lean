/-
# Lines of a text

A line is a piece between two line feeds.  A source does not keep its lines; it looks for the
offsets behind line feeds (`Source.lineStarts`) and finds everything else from them: the location of
an offset by halving, the text of a line by a search for the next line feed, the number of lines by
a special case for a final line feed.

What these computations are compared with is direct: the pieces of a text between its line feeds
(`Source.pieces`, `Source.startsFrom`), and reading the text from its start (`Location.after`).

* `exists_isLine`: where a piece stands, with the line feeds around it (`IsLine`);
* `location_eq`: halving leads to the location that reading leads to;
* `lineStarts_eq`, `lineText_eq`, `lineCount_eq`, `lines_eq`: starts, texts and number of lines are
  those of the pieces.
-/
import ContractLint.Proofs.Bisection
import ContractLint.Source
import ContractLint.Text.Split

namespace ContractLint

/-! ## 1. Cutting a text at line feeds -/

/-- A run ends in front of a character that does not satisfy its predicate. -/
theorem takeWhile_append_stop {α : Type} {p : α → Bool} {a : α} (h : p a = false)
    (xs ys : List α) : (xs ++ a :: ys).takeWhile p = xs.takeWhile p := by
  induction xs with
  | nil => rw [List.nil_append, List.takeWhile_cons_of_neg (by simp [h]), List.takeWhile_nil]
  | cons x xs ih => rw [List.cons_append, List.takeWhile_cons, List.takeWhile_cons, ih]

namespace Text

theorem splitAt_append (sep : Char) (xs ys : List Char) :
    splitAt sep (xs ++ sep :: ys) = splitAt sep xs ++ splitAt sep ys := by
  induction xs with
  | nil => simp [splitAt]
  | cons x xs ih =>
    obtain ⟨p, ps, hp⟩ := List.exists_cons_of_ne_nil (splitAt_ne_nil sep xs)
    rw [List.cons_append, splitAt, splitAt, ih, hp]
    split <;> rfl

/-- A text has one piece more than separators. -/
theorem length_splitAt (sep : Char) (cs : List Char) :
    (splitAt sep cs).length = cs.count sep + 1 := by
  induction cs with
  | nil => rfl
  | cons c cs ih =>
    obtain ⟨p, ps, hp⟩ := List.exists_cons_of_ne_nil (splitAt_ne_nil sep cs)
    rw [splitAt, List.count_cons]
    split
    · rw [List.length_cons, ih]
    · rw [hp] at ih ⊢
      simpa using ih

theorem splitAt_of_notMem {sep : Char} {cs : List Char} (h : sep ∉ cs) : splitAt sep cs = [cs] := by
  induction cs with
  | nil => rfl
  | cons c cs ih =>
    have hc : (c == sep) = false := beq_eq_false_iff_ne.mpr fun hc => h (hc ▸ List.mem_cons_self)
    rw [splitAt, hc, ih fun hmem => h (List.mem_cons_of_mem c hmem)]
    rfl

/-- The first piece of a text ends at the first separator. -/
theorem splitAt_line {sep : Char} {line : List Char} (h : sep ∉ line) (cs : List Char) :
    splitAt sep (line ++ sep :: cs) = line :: splitAt sep cs := by
  rw [splitAt_append, splitAt_of_notMem h]
  rfl

end Text

/-- What stands before the first line feed, and what follows it. -/
theorem line_cases (cs : List Char) :
    '\n' ∉ cs ∨ ∃ line rest, cs = line ++ '\n' :: rest ∧ '\n' ∉ line := by
  by_cases h : '\n' ∈ cs
  · exact .inr (List.eq_append_cons_of_mem h)
  · exact .inl h

theorem notMem_of_mem_splitAt (cs : List Char) :
    ∀ line ∈ Text.splitAt '\n' cs, '\n' ∉ line := by
  rcases line_cases cs with h | ⟨line, rest, rfl, hline⟩
  · rw [Text.splitAt_of_notMem h]
    exact fun line hmem => List.mem_singleton.mp hmem ▸ h
  · rw [Text.splitAt_line hline]
    intro l hl
    rcases List.mem_cons.mp hl with rfl | hl
    · exact hline
    · exact notMem_of_mem_splitAt rest l hl
termination_by cs.length
decreasing_by subst_vars; simp only [List.length_append, List.length_cons]; omega

/-! ## 2. Where lines stand -/

namespace Source

/-- What stands between line feeds, with the empty piece after a final line feed. -/
def pieces (s : Source) : List (List Char) :=
  Text.splitAt '\n' s.text

/-- The offset at which each of some pieces starts, the first at `offset`. -/
def startsFrom (offset : Nat) : List (List Char) → List Nat
  | [] => []
  | p :: ps => offset :: startsFrom (offset + p.length + 1) ps

theorem length_startsFrom (offset : Nat) (ps : List (List Char)) :
    (startsFrom offset ps).length = ps.length := by
  induction ps generalizing offset with
  | nil => rfl
  | cons p ps ih => exact congrArg (· + 1) (ih _)

end Source

/-- `IsLine text front line back`: in the text, `line` is a whole line behind `front` and in front of
`back`. -/
structure IsLine (text front line back : List Char) : Prop where
  text_eq : text = front ++ (line ++ back)
  starts : front = [] ∨ ∃ before, front = before ++ ['\n']
  inside : '\n' ∉ line
  ends : back = [] ∨ ∃ rest, back = '\n' :: rest

/-- **Where a line stands.**  The piece with the index `i` has `i` line feeds before it. -/
theorem exists_isLine {i : Nat} : ∀ {cs line : List Char} (offset : Nat),
    (Text.splitAt '\n' cs)[i]? = some line →
      ∃ front back, IsLine cs front line back ∧ front.count '\n' = i ∧
        (Source.startsFrom offset (Text.splitAt '\n' cs))[i]? = some (offset + front.length) := by
  induction i with
  | zero =>
    intro cs line offset h
    rcases line_cases cs with hcs | ⟨first, rest, rfl, hfirst⟩
    · rw [Text.splitAt_of_notMem hcs] at h ⊢
      obtain rfl : cs = line := Option.some.inj h
      exact ⟨[], [], ⟨(List.append_nil cs).symm, .inl rfl, hcs, .inl rfl⟩, rfl, rfl⟩
    · rw [Text.splitAt_line hfirst] at h ⊢
      obtain rfl : first = line := Option.some.inj h
      exact ⟨[], '\n' :: rest, ⟨rfl, .inl rfl, hfirst, .inr ⟨rest, rfl⟩⟩, rfl, rfl⟩
  | succ i ih =>
    intro cs line offset h
    rcases line_cases cs with hcs | ⟨first, rest, rfl, hfirst⟩
    · rw [Text.splitAt_of_notMem hcs] at h
      cases h
    · rw [Text.splitAt_line hfirst] at h ⊢
      obtain ⟨front, back, hline, hnumber, hstart⟩ := ih (offset + first.length + 1) h
      refine ⟨first ++ '\n' :: front, back, ⟨?_, .inr ?_, hline.inside, hline.ends⟩, ?_, ?_⟩
      · rw [hline.text_eq, List.append_assoc, List.cons_append]
      · rcases hline.starts with rfl | ⟨before, rfl⟩
        · exact ⟨first, rfl⟩
        · exact ⟨first ++ '\n' :: before, by simp⟩
      · rw [List.count_append, List.count_eq_zero.mpr hfirst, List.count_cons_self, hnumber,
          Nat.zero_add]
      · rw [Source.startsFrom, List.getElem?_cons_succ, hstart, List.length_append,
          List.length_cons]
        exact congrArg some (by omega)

/-! ## 3. Line starts -/

namespace Source

theorem startsBehind_append (offset : Nat) (xs ys : List Char) :
    startsBehind offset (xs ++ ys) =
      startsBehind offset xs ++ startsBehind (offset + xs.length) ys := by
  induction xs generalizing offset with
  | nil => rfl
  | cons x xs ih =>
    have hlength : offset + 1 + xs.length = offset + (x :: xs).length := by
      rw [List.length_cons]
      omega
    rw [List.cons_append, startsBehind, startsBehind, ih, hlength]
    split <;> rfl

/-- The starts behind the line feeds of a text lie in it, or at its end. -/
theorem bounds_of_mem_startsBehind {offset : Nat} {cs : List Char} :
    ∀ start ∈ startsBehind offset cs, offset < start ∧ start ≤ offset + cs.length := by
  induction cs generalizing offset with
  | nil => exact fun start h => nomatch h
  | cons c cs ih =>
    intro start h
    rw [startsBehind] at h
    rw [List.length_cons]
    split at h
    · rcases List.mem_cons.mp h with rfl | h
      · omega
      · have := ih start h
        omega
    · have := ih start h
      omega

theorem pairwise_startsBehind (offset : Nat) (cs : List Char) :
    (startsBehind offset cs).Pairwise (· < ·) := by
  induction cs generalizing offset with
  | nil => exact .nil
  | cons c cs ih =>
    rw [startsBehind]
    split
    · exact .cons (fun start h => (bounds_of_mem_startsBehind start h).1) (ih (offset + 1))
    · exact ih (offset + 1)

theorem length_startsBehind (offset : Nat) (cs : List Char) :
    (startsBehind offset cs).length = cs.count '\n' := by
  induction cs generalizing offset with
  | nil => rfl
  | cons c cs ih =>
    rw [startsBehind, List.count_cons]
    split
    · rename_i hc
      rw [List.length_cons, ih, if_pos (beq_iff_eq.mpr hc)]
    · rename_i hc
      rw [ih, if_neg (mt beq_iff_eq.mp hc), Nat.add_zero]

/-- The starts behind line feeds, with that of the text itself, are those of its pieces. -/
theorem cons_startsBehind (offset : Nat) (cs : List Char) :
    offset :: startsBehind offset cs = startsFrom offset (Text.splitAt '\n' cs) := by
  induction cs generalizing offset with
  | nil => rfl
  | cons c cs ih =>
    have ih := ih (offset + 1)
    obtain ⟨p, ps, hp⟩ := List.exists_cons_of_ne_nil (Text.splitAt_ne_nil '\n' cs)
    rw [hp, startsFrom] at ih
    rw [startsBehind, Text.splitAt, hp]
    by_cases hc : c = '\n'
    · rw [if_pos hc, if_pos (beq_iff_eq.mpr hc), startsFrom, startsFrom]
      exact congrArg (offset :: ·) ih
    · have hlength : offset + 1 + p.length = offset + (c :: p).length := by
        rw [List.length_cons]
        omega
      rw [if_neg hc, if_neg (mt beq_iff_eq.mp hc), startsFrom, ← hlength]
      exact congrArg (offset :: ·) (List.cons.inj ih).2

variable (s : Source)

theorem lineStarts_eq : s.lineStarts = startsFrom 0 s.pieces :=
  cons_startsBehind 0 s.text

theorem length_lineStarts : s.lineStarts.length = s.pieces.length := by
  rw [lineStarts_eq, length_startsFrom]

/-! ## 4. Locations -/

end Source

/-- Reading characters from a location whose column counts from the offset `last`: a line feed starts
a line behind it, and the column counts from the last of these starts. -/
theorem Location.after_eq {l : Location} {offset last : Nat} (hoffset : l.offset = offset)
    (hcolumn : l.column = offset - last + 1) (cs : List Char) :
    l.after cs = ⟨l.line + (Source.startsBehind offset cs).length,
      (offset + cs.length : Nat) - ((Source.startsBehind offset cs).getLastD last : Nat) + 1,
      (offset + cs.length : Nat)⟩ := by
  induction cs generalizing l offset last with
  | nil =>
    rw [after_nil, Source.startsBehind, List.getLastD_nil, List.length_nil, List.length_nil,
      Nat.add_zero, ← hoffset]
    rw [← hoffset] at hcolumn
    simp [← hcolumn]
  | cons c cs ih =>
    have hlength : offset + (c :: cs).length = offset + 1 + cs.length := by
      rw [List.length_cons]
      omega
    rw [after_cons, Source.startsBehind, hlength, next]
    split
    · have hstart : (1 : Int) = ((offset + 1 : Nat) : Int) - (offset + 1 : Nat) + 1 := by omega
      rw [ih (congrArg (· + 1) hoffset) hstart, List.getLastD_cons, List.length_cons]
      simp only [Location.mk.injEq, and_true]
      omega
    · have hnext : l.column + 1 = ((offset + 1 : Nat) : Int) - last + 1 := by omega
      exact ih (congrArg (· + 1) hoffset) hnext

namespace Source

variable (s : Source)

/-- **Halving the line starts leads to the location that reading the text leads to.** -/
theorem location_eq (offset : Int) :
    s.location offset = Location.start.after (s.text.take offset.toNat) := by
  obtain ⟨k, hk⟩ : ∃ k, k = (max 0 (min offset s.length)).toNat := ⟨_, rfl⟩
  have hclamp : s.text.take offset.toNat = s.text.take k := by
    rcases Int.le_total offset s.length with hle | hge
    · exact congrArg (s.text.take ·) (by omega)
    · rw [List.take_of_length_le (show s.text.length ≤ offset.toNat by unfold length at hge; omega),
        List.take_of_length_le (show s.text.length ≤ k by unfold length at hge hk; omega)]
  have hlength : (s.text.take k).length = k :=
    List.length_take_of_le (by unfold length at hk; omega)
  -- the starts up to the offset are those behind the line feeds in front of it
  have hstarts : s.lineStarts =
      (0 :: startsBehind 0 (s.text.take k)) ++ startsBehind k (s.text.drop k) := by
    have happend := startsBehind_append 0 (s.text.take k) (s.text.drop k)
    rw [List.take_append_drop, hlength, Nat.zero_add] at happend
    rw [lineStarts, happend, List.cons_append]
  have hsorted : s.lineStarts.Pairwise (· < ·) :=
    .cons (fun start h => (bounds_of_mem_startsBehind start h).1) (pairwise_startsBehind 0 s.text)
  have hplace : bisection s.lineStarts k 0 s.lineStarts.length =
      (startsBehind 0 (s.text.take k)).length + 1 := by
    rw [hstarts] at hsorted ⊢
    refine bisection_append hsorted (fun n hn => ?_) fun n hn =>
      (bounds_of_mem_startsBehind n hn).1
    rcases List.mem_cons.mp hn with rfl | hn
    · exact Nat.zero_le k
    · have hbound := (bounds_of_mem_startsBehind n hn).2
      omega
  have hlast : s.lineStarts.getD (startsBehind 0 (s.text.take k)).length 0 =
      (startsBehind 0 (s.text.take k)).getLastD 0 := by
    rw [hstarts, List.getD_eq_getElem?_getD, List.getElem?_append_left (Nat.lt_succ_self _),
      ← List.getLastD_cons, List.getLastD_eq_getLast?, List.getLast?_eq_getElem?]
    rfl
  rw [hclamp, @Location.after_eq Location.start 0 0 rfl rfl, Nat.zero_add, hlength, location,
    ← hk]
  rw [hplace, Nat.add_sub_cancel, hlast, Int.add_comm]
  rfl

/-! ## 5. The text of a line -/

variable {s}

/-- A line reaches from its start to the next line feed. -/
theorem lineText_eq_takeWhile {i start : Nat}
    (h : s.lineStart? ((i + 1 : Nat) : Int) = some start) :
    s.lineText ((i + 1 : Nat) : Int) = (s.text.drop start).takeWhile (· != '\n') := by
  have hindex : (((i + 1 : Nat) : Int) - 1).toNat = i := by omega
  rw [lineStart?, if_neg (by omega), if_neg (by omega), hindex] at h
  obtain ⟨hi, -⟩ := List.getElem?_eq_some_iff.mp h
  have hstart : s.lineStarts.getD i 0 = start := by
    rw [List.getD_eq_getElem?_getD, h]
    rfl
  rw [lineText, if_neg (by omega), hindex, hstart, List.takeWhile_eq_take_findIdx_not]
  dsimp only
  simp only [bne, Bool.not_not]
  cases hfind : (s.text.drop start).findIdx? (· == '\n') with
  | none =>
    rw [List.findIdx?_eq_none_iff_findIdx_eq] at hfind
    rw [hfind, List.take_length]
  | some n =>
    rw [List.findIdx?_eq_some_iff_findIdx_eq] at hfind
    rw [hfind.2]

/-- The piece with the index `i` is a whole line of the text, the line with the number `i + 1`. -/
theorem exists_isLine_of_piece {i : Nat} {line : List Char} (h : s.pieces[i]? = some line) :
    ∃ front back, IsLine s.text front line back ∧ front.count '\n' = i ∧
      s.lineStart? ((i + 1 : Nat) : Int) = some front.length ∧
      s.lineText ((i + 1 : Nat) : Int) = line := by
  obtain ⟨front, back, hline, hnumber, hstart⟩ := ContractLint.exists_isLine 0 h
  have hindex : (((i + 1 : Nat) : Int) - 1).toNat = i := by omega
  have hstart : s.lineStart? ((i + 1 : Nat) : Int) = some front.length := by
    rw [lineStart?, if_neg (by omega), if_neg (by omega), hindex, lineStarts_eq]
    rwa [Nat.zero_add] at hstart
  refine ⟨front, back, hline, hnumber, hstart, ?_⟩
  have hrun : ∀ c ∈ line, (c != '\n') = true := fun c hc =>
    bne_iff_ne.mpr fun heq => hline.inside (heq ▸ hc)
  rw [lineText_eq_takeWhile hstart, hline.text_eq, List.drop_left]
  rcases hline.ends with rfl | ⟨rest, rfl⟩
  · rw [List.append_nil, List.takeWhile_eq_self_iff.mpr hrun]
  · rw [takeWhile_append_stop rfl, List.takeWhile_eq_self_iff.mpr hrun]

variable (s)

/-- **The text of a line is the piece with its number.** -/
theorem lineText_eq (line : Int) :
    s.lineText line = if line < 1 then [] else s.pieces.getD (line - 1).toNat [] := by
  by_cases hlow : line < 1
  · rw [if_pos hlow, lineText, if_pos (.inl hlow)]
  obtain ⟨i, rfl⟩ : ∃ i : Nat, line = ((i + 1 : Nat) : Int) := ⟨(line - 1).toNat, by omega⟩
  have hindex : (((i + 1 : Nat) : Int) - 1).toNat = i := by omega
  rw [if_neg hlow, hindex, List.getD_eq_getElem?_getD]
  cases hpiece : s.pieces[i]? with
  | none =>
    have hi := List.getElem?_eq_none_iff.mp hpiece
    rw [← length_lineStarts] at hi
    rw [lineText, if_pos (.inr (by omega))]
    rfl
  | some text => exact (exists_isLine_of_piece hpiece).choose_spec.choose_spec.2.2.2

/-- A final line feed ends a line and starts none. -/
theorem lineCount_eq : s.lineCount =
    if s.text.getLast? = some '\n' then s.pieces.length - 1 else s.pieces.length := by
  rw [lineCount, length_lineStarts]

/-- **The lines are the pieces**, without the empty one behind a final line feed. -/
theorem lines_eq : s.lines =
    if s.text.getLast? = some '\n' then s.pieces.dropLast else s.pieces := by
  have htake : s.lines = s.pieces.take s.lineCount := by
    refine List.ext_getElem? fun i => ?_
    rw [lines, List.getElem?_map, List.getElem?_take]
    by_cases hi : i < s.lineCount
    · have hpiece : i < s.pieces.length := by
        have hcount := s.lineCount_eq
        split at hcount <;> omega
      have hindex : (((i + 1 : Nat) : Int) - 1).toNat = i := by omega
      rw [if_pos hi, List.getElem?_range hi, Option.map_some, lineText_eq, if_neg (by omega),
        hindex, List.getD_eq_getElem?_getD, List.getElem?_eq_getElem hpiece, Option.getD_some]
    · rw [if_neg hi, List.getElem?_eq_none (by rw [List.length_range]; omega), Option.map_none]
  rw [htake, lineCount_eq]
  split
  · exact List.dropLast_eq_take.symm
  · exact List.take_length

theorem length_lines : s.lines.length = s.lineCount := by
  rw [lines, List.length_map, List.length_range]

end Source

end ContractLint
