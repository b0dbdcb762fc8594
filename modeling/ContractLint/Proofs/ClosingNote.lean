/-
# A note in front of the end of a class

A note at the end of a class is a clause like any other, and the tree does not keep it.  So putting
one in front of the last `end` should change nothing, and whether it does was decided before the
note is reached: by the last declaration, which may ask for a note of its own (`noteSites`).

The two texts make a fork in front of the `end`.  Where nothing asks, everything before the fork is
read the same, and behind it the note is passed over as a clause, or as more of a note that is there
already (`Fork.readParts_closing`).  Where a declaration asks, it takes the note, looks for a
routine behind it, and finds the `end` (`NoteForm.noteLength_items`).

* `ClassForm.mem_classNoteSites_iff`: a class of the core grammar asks at its `end` if and only if
  an attribute is the last thing in front of it.
* `closing_note_neutral_iff`: a closing note is neutral if and only if the class does not ask there.
* `closing_note_taken_for_feature`: behind an attribute it costs an error and the attribute.
-/
import ContractLint.Proofs.Completeness
import ContractLint.Proofs.NoteSite
import ContractLint.Proofs.Passage

namespace ContractLint

/-! ## 1. Notes -/

/-- An entry of a note: a tag and a string. -/
structure EntryForm where
  tag : Identifier
  colon : Mark .colon
  value : Leaf [.string]

def EntryForm.items (e : EntryForm) : List Item :=
  [e.tag.item, e.colon.item, e.value.item]

/-- A note of a class. -/
structure NoteForm where
  keyword : Word .kwNote
  entries : List EntryForm

namespace NoteForm

def items (n : NoteForm) : List Item :=
  n.keyword.item :: n.entries.flatMap EntryForm.items

variable (n : NoteForm) (closing : Word .kwEnd) (e : Token)

/-- No entry holds a keyword. -/
theorem isKeyword_of_mem {i : Item} (hi : i ∈ n.entries.flatMap EntryForm.items)
    (ws : List Keyword) : i.token.isKeyword ws = false := by
  obtain ⟨entry, -, hi⟩ := List.mem_flatMap.mp hi
  have hi : i = entry.tag.item ∨ i = entry.colon.item ∨ i = entry.value.item := by
    simpa [EntryForm.items] using hi
  rcases hi with rfl | rfl | rfl
  · exact Leaf.isKeyword_identifier _ ws
  · exact Leaf.isKeyword_mark _ ws
  · rw [Token.isKeyword, Leaf.kind_eq]

theorem takeWhile_endsNote (hline : closing.item.startsLine = true) :
    (n.entries.flatMap EntryForm.items ++ closing.items).takeWhile (fun i => !i.endsNote) =
      n.entries.flatMap EntryForm.items := by
  have hentries : ∀ i ∈ n.entries.flatMap EntryForm.items, (!i.endsNote) = true := by
    intro i hi
    rw [Item.endsNote, n.isKeyword_of_mem hi, Bool.and_false]
    rfl
  have hclosing : closing.item.endsNote = true := by
    simp [Item.endsNote, hline]
  rw [List.takeWhile_append_of_pos hentries, Leaf.items,
    List.takeWhile_cons_of_neg (by simp [hclosing]), List.append_nil]

/-- A note of a class lasts up to an `end` that starts a line. -/
theorem classNoteLength_items (hline : closing.item.startsLine = true) :
    classNoteLength ⟨n.items ++ closing.items, e⟩ = n.items.length := by
  have hrun := n.takeWhile_endsNote closing hline
  rw [items, List.length_cons, Nat.add_comm]
  exact congrArg (fun run : List Item => 1 + run.length) hrun

/-- Taken for the note of a feature, it is refused where the `end` is. -/
theorem noteLength_items :
    noteLength ⟨n.items ++ closing.items, e⟩ = .error ⟨.noteWithoutBody, closing.location⟩ := by
  have hinside : (n.entries.flatMap EntryForm.items ++ closing.items).takeWhile
      (fun i => !i.token.isKeyword routineKeywords) =
        n.entries.flatMap EntryForm.items ++ closing.items := by
    refine List.takeWhile_eq_self_iff.mpr fun i hi => ?_
    rcases List.mem_append.mp hi with hi | hi
    · rw [n.isKeyword_of_mem hi]
      rfl
    · rw [List.mem_singleton.mp hi]
      simp [routineKeywords]
  have hfind : (n.entries.flatMap EntryForm.items ++ closing.items).find?
      (fun i => i.token.isKeyword (.kwEnd :: clauseKeywords)) = some closing.item := by
    rw [List.find?_append, List.find?_eq_none.mpr fun i hi => by rw [n.isKeyword_of_mem hi]; decide]
    simp [Leaf.items]
  have hnote : (⟨n.items ++ closing.items, e⟩ : Cursor).atKeyword [.kwNote] = true := by
    simp [items]
  rw [noteLength, if_pos hnote]
  simp only [items, List.cons_append, Cursor.next_cons, hinside, hfind]
  rfl

end NoteForm

/-! ## 2. Parts -/

/-- The places at which the parts at the cursor ask for the note of a feature. -/
def noteSites (c : Cursor) : List Nat :=
  match h : c.items with
  | [] => []
  | i :: is =>
    if i.token.isKeyword [.kwEnd] then []
    else
      have : 0 < c.size := by simp [Cursor.size, h]
      have : 0 < (readPart i is c).taken := readPart_taken_pos h
      let n := (readPart i is c).taken
      partNoteSites i c ++ (noteSites (c.drop n)).map (n + ·)
termination_by c.size
decreasing_by
  simp only [Cursor.size_drop]
  omega

theorem noteSites_of_end {c : Cursor} {i : Item} {is : List Item} (hc : c.items = i :: is)
    (hi : i.token.isKeyword [.kwEnd] = true) : noteSites c = [] := by
  rw [noteSites]
  split
  · rfl
  · rename_i j js hj
    obtain ⟨rfl, rfl⟩ : i = j ∧ is = js := by simpa [hc] using hj
    rw [if_pos hi]

theorem noteSites_of_cons {c : Cursor} {i : Item} {is : List Item} (hc : c.items = i :: is)
    (hi : i.token.isKeyword [.kwEnd] = false) :
    noteSites c = partNoteSites i c ++
      (noteSites (c.drop (readPart i is c).taken)).map ((readPart i is c).taken + ·) := by
  rw [noteSites]
  split
  · simp_all
  · rename_i j js hj
    obtain ⟨rfl, rfl⟩ : i = j ∧ is = js := by simpa [hc] using hj
    simp only [hi, Bool.false_eq_true, if_false]

section Closing

variable {n : NoteForm} {last closing : Word .kwEnd} {k : Nat} {c d : Cursor}

theorem readPart_of_note {c : Cursor} {i : Item} {is : List Item}
    (hi : i.token.isKeyword [.kwNote] = true) :
    readPart i is c = ⟨.skipped, classNoteLength c, [], []⟩ :=
  (PartReading.note hi).readPart_eq

theorem readParts_note {e : Token} (hline : closing.item.startsLine = true) :
    readParts ⟨n.items ++ closing.items, e⟩ = ⟨[.skipped], n.items.length, [], []⟩ := by
  have hcons : (⟨n.items ++ closing.items, e⟩ : Cursor).items =
      n.keyword.item :: (n.entries.flatMap EntryForm.items ++ closing.items) := rfl
  have hend : readParts ⟨closing.items, e⟩ = ⟨[], 0, [], []⟩ := readParts_of_end rfl (by simp)
  have hparts := readParts_of_cons hcons (by simp)
  rw [readPart_of_note (by simp), n.classNoteLength_items closing e hline] at hparts
  simpa [hend] using hparts

/-- A note of the class that lasts up to the fork takes the other note as well. -/
theorem Fork.classNoteLength_closing (h : Fork last.items (n.items ++ closing.items) k c d)
    (hline : closing.item.startsLine = true) (hk : classNoteLength c = k) :
    classNoteLength d = k + n.items.length := by
  have hpos : 0 < k := by
    rw [← hk, classNoteLength]
    omega
  obtain ⟨front, hfront, hc, hd⟩ := (h.next hpos).split
  have hlength : 1 + ((front ++ last.items).takeWhile fun i => !i.endsNote).length = k := hc ▸ hk
  have hkeyword : n.keyword.item.endsNote = false := by
    simp [Item.endsNote, classMarks, clauseKeywords]
  have hall : (front.takeWhile fun i => !i.endsNote).length = front.length := by
    by_contra hne
    rw [List.takeWhile_append, if_neg hne] at hlength
    omega
  have hrun : (d.next.items.takeWhile fun i => !i.endsNote) = front ++ n.items := by
    rw [hd, List.takeWhile_append, if_pos hall, NoteForm.items, List.cons_append,
      List.takeWhile_cons_of_pos (by rw [hkeyword]; rfl), n.takeWhile_endsNote closing hline]
  have hd' : 1 + (d.next.items.takeWhile fun i => !i.endsNote).length = classNoteLength d := rfl
  rw [← hd', hrun, List.length_append]
  omega

/-- A last part that is a note itself. -/
theorem Fork.readParts_of_note {i : Item} {is js : List Item}
    (h : Fork last.items (n.items ++ closing.items) k c d) (hc : c.items = i :: is)
    (hd : d.items = i :: js) (hi : i.token.isKeyword [.kwNote] = true)
    (hline : closing.item.startsLine = true) (hk : classNoteLength c = k) :
    readParts c = ⟨[.skipped], k, [], []⟩ ∧
      readParts d = ⟨[.skipped], k + n.items.length, [], []⟩ := by
  have hend : i.token.isKeyword [.kwEnd] = false := Token.isKeyword_of_disjoint hi (by decide)
  obtain ⟨hlast, hright⟩ := h.items_drop
  have hends : readParts (c.drop k) = ⟨[], 0, [], []⟩ := readParts_of_end hlast (by simp)
  have hclosing : (d.drop (k + n.items.length)).items = closing.item :: [] := by
    rw [Cursor.drop_add, Cursor.drop, hright]
    exact List.drop_left
  have hends' : readParts (d.drop (k + n.items.length)) = ⟨[], 0, [], []⟩ :=
    readParts_of_end hclosing (by simp)
  have hparts := readParts_of_cons hc hend
  have hparts' := readParts_of_cons hd hend
  rw [readPart_of_note hi] at hparts hparts'
  rw [h.classNoteLength_closing hline hk] at hparts'
  rw [hk] at hparts
  dsimp only at hparts hparts'
  rw [hparts, hparts', hends, hends']
  exact ⟨rfl, rfl⟩

/-- **Parts in front of a closing note are read the same** where none asks for a note, and the note
itself adds nothing. -/
theorem Fork.readParts_closing (h : Fork last.items (n.items ++ closing.items) k c d)
    (hline : closing.item.startsLine = true) (hclean : (readParts c).errors = [])
    (hk : (readParts c).taken = k) (hask : k ∉ noteSites c) :
    ∃ extra : List Part, (∀ p ∈ extra, p = .skipped) ∧
      readParts d =
        ⟨(readParts c).value ++ extra, k + n.items.length, [], (readParts c).resumed⟩ := by
  induction c using readParts.induct generalizing k d with
  | case1 c hc => exact absurd hc h.items_ne_nil.1
  | case2 c i is hc hend =>
    rw [readParts_of_end hc hend] at hk ⊢
    obtain rfl : 0 = k := hk
    have hd : d = ⟨n.items ++ closing.items, d.eof⟩ := by
      rw [← h.items_drop.2]
      rfl
    refine ⟨[.skipped], fun p hp => List.mem_singleton.mp hp, ?_⟩
    rw [hd, readParts_note hline, Nat.zero_add]
    rfl
  | case3 c i is hc hend hpos htaken part =>
    rename_i ih
    have hend := Bool.eq_false_iff.mpr hend
    have hparts : readParts c = ⟨part.value :: (readParts (c.drop part.taken)).value,
        part.taken + (readParts (c.drop part.taken)).taken,
        part.errors ++ (readParts (c.drop part.taken)).errors,
        part.resumed ++ (readParts (c.drop part.taken)).resumed⟩ := readParts_of_cons hc hend
    rw [hparts] at hclean hk
    dsimp only at hclean hk
    obtain ⟨hpart, hrest⟩ := List.append_eq_nil_iff.mp hclean
    have hle : part.taken ≤ k := by omega
    rw [noteSites_of_cons hc hend, List.mem_append, not_or, mem_map_add_iff hle] at hask
    obtain ⟨j, js, ks, hj, hd⟩ := h.exists_cons (Nat.lt_of_lt_of_le htaken hle)
    obtain ⟨rfl, rfl⟩ : i = j ∧ is = js := by simpa [hc] using hj
    by_cases hreach : i.token.isKeyword [.kwNote] = true ∧ part.taken = k
    · have hread : part = ⟨.skipped, classNoteLength c, [], []⟩ := readPart_of_note hreach.1
      obtain ⟨hnote, hnote'⟩ := h.readParts_of_note hc hd hreach.1 hline (by rw [← hreach.2, hread])
      exact ⟨[], by simp, by rw [hnote', hnote, List.append_nil]⟩
    · have hsame : readPart i ks d = part := by
        refine h.same_readPart hc hpart hle hask.1 ?_
        cases hnote : i.token.isKeyword [.kwNote] with
        | false => exact .inl rfl
        | true => exact .inr (Nat.lt_of_le_of_ne hle fun heq => hreach ⟨hnote, heq⟩)
      obtain ⟨extra, hextra, hread⟩ := ih (h.drop hle) hrest (by omega) hask.2
      refine ⟨extra, hextra, ?_⟩
      have hlength : part.taken + (k - part.taken + n.items.length) = k + n.items.length := by omega
      rw [hparts, readParts_of_cons hd hend, hsame, hread, hlength, hpart]
      rfl

/-- Where a part asks for the note of a feature at the fork, the closing note is a fault. -/
theorem Fork.mem_errors_readParts {left right : List Item} {e : SyntaxError}
    (h : Fork left right k c d) (hclean : (readParts c).errors = []) (hask : k ∈ noteSites c)
    (he : noteLength (d.drop k) = .error e) : e ∈ (readParts d).errors := by
  induction c using readParts.induct generalizing k d with
  | case1 c hc => exact absurd hc h.items_ne_nil.1
  | case2 c i is hc hend =>
    rw [noteSites_of_end hc hend] at hask
    cases hask
  | case3 c i is hc hend hpos htaken part =>
    rename_i ih
    have hend := Bool.eq_false_iff.mpr hend
    have hparts : readParts c = ⟨part.value :: (readParts (c.drop part.taken)).value,
        part.taken + (readParts (c.drop part.taken)).taken,
        part.errors ++ (readParts (c.drop part.taken)).errors,
        part.resumed ++ (readParts (c.drop part.taken)).resumed⟩ := readParts_of_cons hc hend
    rw [hparts] at hclean
    obtain ⟨hpart, hrest⟩ := List.append_eq_nil_iff.mp hclean
    obtain ⟨j, js, ks, hj, hd⟩ := h.exists_cons (h.pos_of_head hc hend (by decide))
    obtain ⟨rfl, rfl⟩ : i = j ∧ is = js := by simpa [hc] using hj
    rw [readParts_of_cons hd hend]
    by_cases hsite : k ∈ partNoteSites i c
    · exact List.mem_append_left _ (h.mem_errors_readPart hsite he)
    rw [noteSites_of_cons hc hend, List.mem_append] at hask
    have hlater : k ∈ (noteSites (c.drop part.taken)).map (part.taken + ·) :=
      hask.resolve_left hsite
    obtain ⟨m, hm, hsum⟩ := List.mem_map.mp hlater
    have hle : part.taken ≤ k := by omega
    have hlater := (mem_map_add_iff hle).mp hlater
    -- at the `end` itself nothing asks, so the part ends in front of it
    have hlt : part.taken < k := by
      refine Nat.lt_of_le_of_ne hle fun heq => ?_
      obtain ⟨x, xs, hleft, hx⟩ := h.left_end
      have hends : (c.drop part.taken).items = x :: xs := by rw [heq, h.items_drop.1, hleft]
      rw [noteSites_of_end hends (by rw [Token.isKeyword, hx]; rfl)] at hlater
      cases hlater
    have hsame : readPart i ks d = part := h.same_readPart hc hpart hle hsite (.inr hlt)
    rw [hsame]
    refine List.mem_append_right _ (ih (h.drop hle) hrest hlater ?_)
    rw [← Cursor.drop_add, Nat.add_sub_cancel' hle]
    exact he

end Closing

/-! ## 3. Classes -/

/-- The number of items of a note at the cursor, if there is one. -/
def leadingNoteLength (c : Cursor) : Nat :=
  if c.atKeyword [.kwNote] then classNoteLength c else 0

/-- The number of items in front of the parts of a class. -/
def headLength (c : Cursor) : Nat :=
  let n₁ := leadingNoteLength c + (recoverHeader (c.drop (leadingNoteLength c))).taken
  let n₂ := n₁ + (readGenerics (c.drop n₁)).2
  n₂ + obsoleteLength (c.drop n₂)

theorem readClass_eq (c : Cursor) :
    let header := recoverHeader (c.drop (leadingNoteLength c))
    let n₁ := leadingNoteLength c + header.taken
    let parts := readParts (c.drop (headLength c))
    readClass c =
      { value :=
          { name := header.value.name
            kind := header.value.kind
            frozen := header.value.frozen
            generics := (readGenerics (c.drop n₁)).1
            parents := Part.parentNames parts.value
            creators := Part.creatorNames parts.value
            clauses := Part.clauses parts.value
            invariant := Invariant.merge? (Part.invariants parts.value) }
        taken := headLength c + parts.taken
        errors := header.errors ++ parts.errors ++
          closingErrors (c.drop (headLength c + parts.taken))
        resumed := header.resumed ++ parts.resumed } :=
  rfl

/-- The places at which a class asks for the note of a feature. -/
def classNoteSites (c : Cursor) : List Nat :=
  (noteSites (c.drop (headLength c))).map (headLength c + ·)

namespace Fork

variable {left right : List Item} {k m : Nat} {c d : Cursor}

/-- What stands in front of the parts is read the same. -/
theorem same_head (h : Fork left right k c d)
    (hclean : (recoverHeader (c.drop (leadingNoteLength c))).errors = []) (hk : headLength c ≤ k) :
    leadingNoteLength d = leadingNoteLength c ∧
      recoverHeader (d.drop (leadingNoteLength c)) =
        recoverHeader (c.drop (leadingNoteLength c)) ∧
      headLength d = headLength c ∧
      let n₁ := leadingNoteLength c + (recoverHeader (c.drop (leadingNoteLength c))).taken
      readGenerics (d.drop n₁) = readGenerics (c.drop n₁) := by
  have hle : leadingNoteLength c + (recoverHeader (c.drop (leadingNoteLength c))).taken ≤ k := by
    rw [headLength] at hk
    omega
  obtain ⟨htwo, hheader⟩ := (h.drop (by omega)).same_recoverHeader hclean (by omega)
  have hnote : leadingNoteLength d = leadingNoteLength c := by
    have hlt : leadingNoteLength c < k := by omega
    unfold leadingNoteLength at hlt ⊢
    rw [h.atKeyword_of_pos (by omega)]
    split
    · rename_i hnote
      rw [if_pos hnote] at hlt
      exact h.same_classNoteLength hlt
    · rfl
  have hgenerics := (h.drop hle).same_readGenerics (by rw [headLength] at hk; omega)
  refine ⟨hnote, hheader, ?_, hgenerics⟩
  unfold headLength at hk ⊢
  dsimp only at hk ⊢
  rw [hnote, hheader, hgenerics, (h.drop (by omega)).same_obsoleteLength]

end Fork

/-- Nothing is wrong with the end of a class only if one item is left. -/
theorem size_of_closingErrors {c : Cursor} (h : closingErrors c = []) : c.size = 1 := by
  obtain ⟨items, eof⟩ := c
  rcases items with _ | ⟨i, _ | ⟨j, is⟩⟩
  · cases h
  · rfl
  · cases h

/-- What is read without an error in front of the last item of a class. -/
theorem readClass_clean {k : Nat} {c : Cursor} (hclean : (readClass c).errors = [])
    (hsize : c.size = k + 1) :
    (recoverHeader (c.drop (leadingNoteLength c))).errors = [] ∧
      (readParts (c.drop (headLength c))).errors = [] ∧
        headLength c + (readParts (c.drop (headLength c))).taken = k := by
  obtain ⟨hinner, hclosing⟩ := List.append_eq_nil_iff.mp hclean
  obtain ⟨hheader, hparts⟩ := List.append_eq_nil_iff.mp hinner
  have hrest : (c.drop (headLength c + (readParts (c.drop (headLength c))).taken)).size = 1 :=
    size_of_closingErrors hclosing
  rw [Cursor.size_drop] at hrest
  exact ⟨hheader, hparts, by omega⟩

section Closing

variable {n : NoteForm} {last closing : Word .kwEnd} {k : Nat} {c d : Cursor}

theorem Fork.size_eq (h : Fork last.items (n.items ++ closing.items) k c d) : c.size = k + 1 := by
  obtain ⟨front, rfl, hc, -⟩ := h.split
  rw [Cursor.size, hc, List.length_append]
  rfl

/-- Parts that the tree does not keep add nothing to a class. -/
theorem parts_append_skipped (ps : List Part) {extra : List Part}
    (h : ∀ p ∈ extra, p = .skipped) :
    Part.parentNames (ps ++ extra) = Part.parentNames ps ∧
      Part.creatorNames (ps ++ extra) = Part.creatorNames ps ∧
      Part.clauses (ps ++ extra) = Part.clauses ps ∧
      Part.invariants (ps ++ extra) = Part.invariants ps := by
  have hparents : Part.parentNames extra = [] :=
    List.flatMap_eq_nil_iff.mpr fun p hp => by rw [h p hp]
  have hcreators : Part.creatorNames extra = [] :=
    List.flatMap_eq_nil_iff.mpr fun p hp => by rw [h p hp]
  have hclauses : Part.clauses extra = [] :=
    List.filterMap_eq_nil_iff.mpr fun p hp => by rw [h p hp]
  have hinvariants : Part.invariants extra = [] :=
    List.filterMap_eq_nil_iff.mpr fun p hp => by rw [h p hp]
  unfold Part.parentNames at hparents ⊢
  unfold Part.creatorNames at hcreators ⊢
  unfold Part.clauses at hclauses ⊢
  unfold Part.invariants at hinvariants ⊢
  simp only [List.flatMap_append, List.filterMap_append, hparents, hcreators, hclauses, hinvariants,
    List.append_nil, and_self]

/-- **A closing note is neutral** where no feature's note is asked for. -/
theorem Fork.readClass_closing (h : Fork last.items (n.items ++ closing.items) k c d)
    (hline : closing.item.startsLine = true) (hclean : (readClass c).errors = [])
    (hask : k ∉ classNoteSites c) :
    (readClass d).value = (readClass c).value ∧ (readClass d).errors = [] := by
  obtain ⟨hheader, hparts, htaken⟩ := readClass_clean hclean h.size_eq
  have hle : headLength c ≤ k := by omega
  obtain ⟨hnote, hheader', hhead, hgenerics⟩ := h.same_head hheader hle
  rw [classNoteSites, mem_map_add_iff hle] at hask
  obtain ⟨extra, hextra, hread⟩ := (h.drop hle).readParts_closing hline hparts (by omega) hask
  have hlength : headLength c + (k - headLength c + n.items.length) = k + n.items.length := by omega
  have hclosing : d.drop (k + n.items.length) = ⟨closing.items, d.eof⟩ := by
    rw [Cursor.drop_add, Cursor.drop, h.items_drop.2, List.drop_left]
    rfl
  obtain ⟨hparents, hcreators, hclauses, hinvariants⟩ :=
    parts_append_skipped (readParts (c.drop (headLength c))).value hextra
  rw [readClass_eq d, readClass_eq c]
  simp only [hnote, hheader', hhead, hgenerics, hread, hlength, hclosing, hheader, hparents,
    hcreators, hclauses, hinvariants]
  exact ⟨trivial, rfl⟩

/-- **A closing note is refused** where a feature's note is asked for, at the `end` behind it. -/
theorem Fork.mem_errors_readClass (h : Fork last.items (n.items ++ closing.items) k c d)
    (hclean : (readClass c).errors = []) (hask : k ∈ classNoteSites c) :
    ⟨.noteWithoutBody, closing.location⟩ ∈ (readClass d).errors := by
  obtain ⟨hheader, hparts, htaken⟩ := readClass_clean hclean h.size_eq
  have hle : headLength c ≤ k := by omega
  obtain ⟨-, -, hhead, -⟩ := h.same_head hheader hle
  rw [classNoteSites, mem_map_add_iff hle] at hask
  have hnote : noteLength ((d.drop (headLength c)).drop (k - headLength c)) =
      .error ⟨.noteWithoutBody, closing.location⟩ := by
    rw [← Cursor.drop_add, Nat.add_sub_cancel' hle]
    have hd : d.drop k = ⟨n.items ++ closing.items, d.eof⟩ := by
      rw [← h.items_drop.2]
      rfl
    rw [hd, n.noteLength_items]
  have hmem := (h.drop hle).mem_errors_readParts hparts hask hnote
  rw [← hhead] at hmem
  exact List.mem_append_left _ (List.mem_append_right _ hmem)

end Closing

/-! ## 4. Classes of the core grammar -/

/-- Whether a declaration is an attribute. -/
def DeclarationForm.isStored : DeclarationForm → Bool
  | stored .. => true
  | computed .. => false

/-- Whether an attribute is the last thing in a clause. -/
def ClauseForm.endsStored : ClauseForm → Bool
  | create .. => false
  | feature _ _ declarations => declarations.getLast?.any DeclarationForm.isStored

/-- Whether an attribute is the last thing in front of the `end` of a class. -/
def ClassForm.endsStored (g : ClassForm) : Bool :=
  g.invariant.isNone && g.clauses.getLast?.any ClauseForm.endsStored

theorem SignatureForm.noteAt?_items (s : SignatureForm) {rest : List Item} (e : Token)
    (h : Heads afterSignature rest) :
    (⟨s.items ++ rest, e⟩ : Cursor).noteAt? = some s.items.length := by
  have hequal : (⟨rest, e⟩ : Cursor).atSymbol [.equal] = false := h.atSymbol (by decide)
  have his : (⟨rest, e⟩ : Cursor).atKeyword [.kwIs] = false := h.atKeyword (by decide)
  have hobsolete : (⟨rest, e⟩ : Cursor).atKeyword [.kwObsolete] = false := h.atKeyword (by decide)
  simp [Cursor.noteAt?, readSignature_form s e h, hequal, Cursor.optKeyword, his, obsoleteLength,
    hobsolete]

/-- A declaration asks behind its signature, which is its end if it is an attribute. -/
theorem DeclarationForm.noteAt?_items (d : DeclarationForm) {rest : List Item} (e : Token)
    (h : Heads afterDeclaration rest) :
    ∃ n ≤ d.items.length, (⟨d.items ++ rest, e⟩ : Cursor).noteAt? = some n ∧
      (n = d.items.length ↔ d.isStored = true) := by
  cases d with
  | stored s typed =>
    exact ⟨_, Nat.le_refl _, s.noteAt?_items e (h.mono (by decide)), iff_of_true rfl rfl⟩
  | computed s r =>
    have hrest : Heads afterSignature (r.items ++ rest) := (r.heads rest).mono (by decide)
    have hroutine : 0 < r.items.length := by
      simp only [RoutineForm.items, List.length_append, Leaf.items, List.length_singleton]
      omega
    refine ⟨s.items.length, by simp [items], ?_, iff_of_false ?_ (by simp [isStored])⟩
    · rw [items, List.append_assoc, s.noteAt?_items e hrest]
    · simp only [items, List.length_append]
      omega

/-- Behind its last declaration a list asks if and only if that one is an attribute. -/
theorem mem_featureNoteSites_form {rest : List Item} (e : Token)
    (h : Heads afterDeclarations rest) :
    ∀ (ds : List DeclarationForm) (n : Nat), (ds.flatMap DeclarationForm.items).length ≤ n →
      (n ∈ featureNoteSites ⟨ds.flatMap DeclarationForm.items ++ rest, e⟩ ↔
        n = (ds.flatMap DeclarationForm.items).length ∧
          ds.getLast?.any DeclarationForm.isStored = true)
  | [], n, _ => by
    have hsites : featureNoteSites ⟨rest, e⟩ = [] :=
      featureNoteSites_of_boundary fun i hi => h.isKeyword hi (by decide)
    rw [List.flatMap_nil, List.nil_append, hsites]
    simp
  | d :: ds, n, hn => by
    have hrest : Heads afterDeclaration (ds.flatMap DeclarationForm.items ++ rest) :=
      Heads.flatMap (fun d is => (d.heads is).mono (by decide)) (h.mono (by decide)) ds
    obtain ⟨i, is, hd, hi⟩ := d.exists_cons
    have hstarts := startsDeclaration_of_kind hi
    obtain ⟨j, hj, hsite, hstored⟩ := d.noteAt?_items e hrest
    rw [List.flatMap_cons, List.length_append] at hn ⊢
    have hread := readDeclaration_form d e hstarts hrest
    have hsites := featureNoteSites_of_ok (by rw [hd]; rfl)
      (not_boundary_of_startsDeclaration hstarts) hread
    dsimp only at hsites
    rw [hsite, Cursor.drop_append] at hsites
    rw [List.append_assoc, hsites, List.mem_append, mem_map_add_iff (by omega),
      mem_featureNoteSites_form e h ds _ (by omega), Option.toList_some, List.mem_singleton]
    cases ds with
    | nil =>
      simp only [List.flatMap_nil, List.length_nil, List.getLast?_nil, Option.any_none,
        Bool.false_eq_true, and_false, or_false, List.getLast?_singleton, Option.any_some,
        ← hstored]
      simp only [List.flatMap_nil, List.length_nil] at hn
      omega
    | cons d' ds =>
      have hpos : 0 < ((d' :: ds).flatMap DeclarationForm.items).length := by
        rw [List.flatMap_cons, List.length_append]
        exact Nat.add_pos_left d'.length_items_pos _
      have hne : n ≠ j := by omega
      rw [List.getLast?_cons_cons, or_iff_right hne]
      exact and_congr_left' (by omega)

/-- A clause asks behind its last item if and only if an attribute stands there. -/
theorem ClauseForm.mem_partNoteSites (p : ClauseForm) {i : Item} {is rest : List Item} (e : Token)
    {n : Nat} (h : Heads afterDeclarations rest) (hi : p.items ++ rest = i :: is)
    (hn : p.items.length ≤ n) :
    n ∈ partNoteSites i ⟨p.items ++ rest, e⟩ ↔ n = p.items.length ∧ p.endsStored = true := by
  cases p with
  | create keyword clients names =>
    obtain rfl : keyword.item = i := (List.cons.inj hi).1
    simp [partNoteSites, Item.startsDeclaration, Token.isIdentifier, keyword.kind_eq, endsStored]
  | feature keyword clients ds =>
    obtain rfl : keyword.item = i := (List.cons.inj hi).1
    have hds : Heads afterDeclaration (ds.flatMap DeclarationForm.items ++ rest) :=
      Heads.flatMap (fun d is => (d.heads is).mono (by decide)) (h.mono (by decide)) ds
    have hclients := readClients_form e hds (by decide) clients
    have hsites : partNoteSites keyword.item ⟨(feature keyword clients ds).items ++ rest, e⟩ =
        (featureNoteSites ⟨ds.flatMap DeclarationForm.items ++ rest, e⟩).map
          (1 + (optItems BracesForm.items clients).length + ·) := by
      simp [partNoteSites, items, headItems, hclients, Cursor.drop_add]
    have hlength : (feature keyword clients ds).items.length =
        1 + (optItems BracesForm.items clients).length +
          (ds.flatMap DeclarationForm.items).length := by
      simp only [items, headItems, List.length_append, List.length_cons]
      omega
    rw [hlength] at hn ⊢
    rw [hsites, mem_map_add_iff (by omega), mem_featureNoteSites_form e h ds _ (by omega)]
    exact and_congr_left' (by omega)

theorem ClauseForm.length_items_pos (p : ClauseForm) : 0 < p.items.length := by
  cases p <;> simp [items, headItems]

/-- Clauses ask where the last of them does, and then what follows them asks. -/
theorem mem_noteSites_form {rest : List Item} (e : Token) (h : Heads afterDeclarations rest) :
    ∀ (ps : List ClauseForm) (n : Nat), (ps.flatMap ClauseForm.items).length ≤ n →
      (n ∈ noteSites ⟨ps.flatMap ClauseForm.items ++ rest, e⟩ ↔
        n = (ps.flatMap ClauseForm.items).length ∧
            ps.getLast?.any ClauseForm.endsStored = true ∨
          n - (ps.flatMap ClauseForm.items).length ∈ noteSites ⟨rest, e⟩)
  | [], n, _ => by simp
  | p :: ps, n, hn => by
    have hrest : Heads afterDeclarations (ps.flatMap ClauseForm.items ++ rest) :=
      Heads.flatMap ClauseForm.heads h ps
    obtain ⟨i, is, hcons, hend, hpart⟩ := readPart_form p e hrest
    have hsites := noteSites_of_cons
      (c := ⟨p.items ++ (ps.flatMap ClauseForm.items ++ rest), e⟩) hcons hend
    rw [hpart] at hsites
    dsimp only at hsites
    rw [Cursor.drop_append] at hsites
    rw [List.flatMap_cons, List.length_append] at hn ⊢
    rw [List.append_assoc, hsites, List.mem_append, p.mem_partNoteSites e hrest hcons (by omega),
      mem_map_add_iff (by omega), mem_noteSites_form e h ps _ (by omega), Nat.sub_sub, ← or_assoc]
    refine or_congr_left ?_
    cases ps with
    | nil => simp
    | cons p' ps =>
      have hpos : 0 < ((p' :: ps).flatMap ClauseForm.items).length := by
        rw [List.flatMap_cons, List.length_append]
        exact Nat.add_pos_left p'.length_items_pos _
      have hne : ¬ (n = p.items.length ∧ p.endsStored = true) := by omega
      rw [List.getLast?_cons_cons, or_iff_right hne]
      exact and_congr_left' (by omega)

/-- Neither an invariant nor the `end` of a class asks. -/
theorem noteSites_invariant (b : Option (BlockForm .classInvariant .kwInvariant))
    (closing : Word .kwEnd) (e : Token) :
    (optItems BlockForm.items b).length ∉
      noteSites ⟨optItems BlockForm.items b ++ closing.items, e⟩ := by
  have hend : noteSites ⟨closing.items, e⟩ = [] := noteSites_of_end rfl (by simp)
  cases b with
  | none => simp [optItems, hend]
  | some b =>
    have hclosing : Heads [.keyword .kwEnd] closing.items := Heads.leaf closing []
    have hblock := readBlock_form b e (hclosing.endsSpan (by decide) (by decide))
      (hclosing.atKeyword (by decide))
    have hpart : (readPart b.keyword.item (b.span.items ++ closing.items)
        ⟨b.items ++ closing.items, e⟩).taken = b.items.length := by
      simp [readPart, readInvariant, hblock]
    have hnone : partNoteSites b.keyword.item ⟨b.items ++ closing.items, e⟩ = [] := by
      simp [partNoteSites, Item.startsDeclaration, Token.isIdentifier, b.keyword.kind_eq]
    have hcons : (⟨b.items ++ closing.items, e⟩ : Cursor).items =
      b.keyword.item :: (b.span.items ++ closing.items) := rfl
    have hsites := noteSites_of_cons hcons (by simp)
    rw [hpart, hnone, Cursor.drop_append, hend] at hsites
    simp [optItems, hsites]

theorem ClassForm.headLength_items (g : ClassForm) (e : Token) :
    headLength ⟨g.items, e⟩ = g.marks.length + 2 := by
  have hdrop : (⟨g.items, e⟩ : Cursor).drop (g.marks.length + 2) = ⟨g.bodyItems, e⟩ := by
    simp [ClassForm.items, Cursor.drop, List.drop_append]
  have hnote : (⟨g.items, e⟩ : Cursor).atKeyword [.kwNote] = false :=
    g.heads_items.atKeyword (by decide)
  have hbracket : (⟨g.bodyItems, e⟩ : Cursor).atSymbol [.openBracket] = false :=
    g.heads_bodyItems.atSymbol (by decide)
  have hobsolete : (⟨g.bodyItems, e⟩ : Cursor).atKeyword [.kwObsolete] = false :=
    g.heads_bodyItems.atKeyword (by decide)
  simp [headLength, leadingNoteLength, hnote, recoverHeader, readHeader_form, hdrop, readGenerics,
    Cursor.bracketLength, hbracket, obsoleteLength, hobsolete]

/-- **A class of the core grammar asks for a note at its `end`** if and only if an attribute is the
last thing in front of it. -/
theorem ClassForm.mem_classNoteSites_iff (g : ClassForm) (e : Token) :
    g.marks.length + 2 + g.partsLength ∈ classNoteSites ⟨g.items, e⟩ ↔ g.endsStored = true := by
  have hdrop : (⟨g.items, e⟩ : Cursor).drop (g.marks.length + 2) = ⟨g.bodyItems, e⟩ := by
    simp [ClassForm.items, Cursor.drop, List.drop_append]
  have hbehind := noteSites_invariant g.invariant g.closing e
  rw [classNoteSites, g.headLength_items, hdrop, mem_map_add_iff (by omega),
    Nat.add_sub_cancel_left, bodyItems,
    mem_noteSites_form e g.heads_invariant _ _ (by rw [partsLength]; omega), partsLength,
    Nat.add_sub_cancel_left, or_iff_left hbehind]
  cases hinvariant : g.invariant with
  | none => simp [endsStored, hinvariant, optItems]
  | some b => simp [endsStored, hinvariant, optItems, BlockForm.items]

theorem ClassForm.length_front (g : ClassForm) {front : List Item} {last : Word .kwEnd}
    (hg : g.items = front ++ last.items) :
    front.length = g.marks.length + 2 + g.partsLength := by
  have hlength := congrArg List.length hg
  simp [items, bodyItems, Leaf.items, partsLength] at hlength ⊢
  omega

/-! ## 5. Texts -/

/-- **When a closing note is neutral.**  A note in front of the final `end` of a class that is read
without a diagnostic adds no diagnostic and leaves the tree as it is, unless the class asks for the
note of a feature there; in a class of the core grammar this is so if an attribute is the last thing
in front of the `end`.  Such a note is refused at the `end`, and nothing else is ever wrong with
it. -/
theorem closing_note_neutral_iff (raw₁ raw₂ path : String) (front : List Item) (n : NoteForm)
    (last closing : Word .kwEnd)
    (hbefore : (Cursor.ofLexed (Source.ofString raw₁ path).lex).items = front ++ last.items)
    (hafter : (Cursor.ofLexed (Source.ofString raw₂ path).lex).items =
      front ++ (n.items ++ closing.items))
    (hline : closing.item.startsLine = true)
    (hfaults : ∀ t ∈ (Source.ofString raw₂ path).lex.significant, t.fault = none)
    (hclean : (Source.ofString raw₁ path).lex.parse.diagnostics = []) :
    let p := (Source.ofString raw₁ path).lex.parse
    let q := (Source.ofString raw₂ path).lex.parse
    let sites := classNoteSites (Cursor.ofLexed (Source.ofString raw₁ path).lex)
    (q.diagnostics = [] ∧ q.tree = p.tree ↔ front.length ∉ sites) ∧
      (front.length ∈ sites → ⟨.noteWithoutBody, closing.location⟩ ∈ q.errors) ∧
      ∀ g : ClassForm, g.items = front ++ last.items →
        (front.length ∈ sites ↔ g.endsStored = true) := by
  intro p q sites
  have h : Fork last.items (n.items ++ closing.items) front.length
      (Cursor.ofLexed (Source.ofString raw₁ path).lex)
      (Cursor.ofLexed (Source.ofString raw₂ path).lex) :=
    ⟨⟨front, rfl, hbefore, hafter⟩, ⟨last.item, [], rfl, last.kind_eq⟩,
      ⟨n.keyword.item, _, rfl, n.keyword.kind_eq⟩⟩
  have herrors : p.errors = [] := List.map_eq_nil_iff.mp hclean
  obtain ⟨-, hclass⟩ := List.append_eq_nil_iff.mp herrors
  have hrefused (hask : front.length ∈ sites) :
      ⟨.noteWithoutBody, closing.location⟩ ∈ q.errors :=
    List.mem_append_right _ (h.mem_errors_readClass hclass hask)
  refine ⟨⟨fun hneutral hask => ?_, fun hask => ?_⟩, hrefused, fun g hg => ?_⟩
  · have hmem := hrefused hask
    rw [List.map_eq_nil_iff.mp hneutral.1] at hmem
    cases hmem
  · obtain ⟨hvalue, hnone⟩ := h.readClass_closing hline hclass hask
    exact ⟨List.map_eq_nil_iff.mpr (List.append_eq_nil_iff.mpr ⟨tokenErrors_eq_nil hfaults, hnone⟩),
      congrArg (fun d => (⟨path, [d]⟩ : Tree)) hvalue⟩
  · have hcursor : Cursor.ofLexed (Source.ofString raw₁ path).lex =
        ⟨g.items, (Source.ofString raw₁ path).eof⟩ := by
      rw [hg, ← hbefore]
      rfl
    rw [g.length_front hg, ← g.mem_classNoteSites_iff, ← hcursor]

def sampleRoutineText : String :=
  "class A feature f do end\nend"

def sampleNoteText : String :=
  "class A feature f do end\nnote t: \"s\"\nend"

/-- An item in the line of the note. -/
def noteLeaf (kind : Kind) (text : String) (column : Int) (segments : List Segment) : Leaf [kind] :=
  ⟨{ token := { kind, text, location := ⟨2, column, 24 + column⟩, segments }
     startsLine := column == 1
     comments := [] }, List.mem_singleton_self kind⟩

def sampleNote : NoteForm where
  keyword := noteLeaf _ "note" 1 []
  entries := [⟨noteLeaf _ "t" 6 [], noteLeaf _ ":" 7 [], noteLeaf _ "\"s\"" 9 [.plain ['s']]⟩]

/-- The `end` of the class, at the start of a line. -/
def endAt (line offset : Int) : Word .kwEnd :=
  ⟨{ token := { kind := .keyword .kwEnd, text := "end", location := ⟨line, 1, offset⟩ }
     startsLine := true
     comments := [] }, List.mem_singleton_self _⟩

theorem closing_note_neutral_iff_routine :
    let p := (Source.ofString sampleRoutineText "a.e").lex.parse
    let q := (Source.ofString sampleNoteText "a.e").lex.parse
    p.diagnostics = [] ∧ q.diagnostics = [] ∧ q.tree = p.tree := by
  intro p q
  -- each text is evaluated once, with all that is asked of it
  obtain ⟨hclean, hbefore, hsites, hlength⟩ :
      p.diagnostics = [] ∧
        (Cursor.ofLexed (Source.ofString sampleRoutineText "a.e").lex).items =
          (Cursor.ofLexed (Source.ofString sampleRoutineText "a.e").lex).items.take 6 ++
            (endAt 2 25).items ∧
        classNoteSites (Cursor.ofLexed (Source.ofString sampleRoutineText "a.e").lex) = [4] ∧
        ((Cursor.ofLexed (Source.ofString sampleRoutineText "a.e").lex).items.take 6).length = 6 := by
    cbv
  obtain ⟨hafter, hfaults⟩ :
      (Cursor.ofLexed (Source.ofString sampleNoteText "a.e").lex).items =
          (Cursor.ofLexed (Source.ofString sampleRoutineText "a.e").lex).items.take 6 ++
            (sampleNote.items ++ (endAt 3 37).items) ∧
        (Source.ofString sampleNoteText "a.e").lex.significant.all (·.fault.isNone) = true := by
    cbv
  have h := closing_note_neutral_iff sampleRoutineText sampleNoteText "a.e"
    ((Cursor.ofLexed (Source.ofString sampleRoutineText "a.e").lex).items.take 6) sampleNote
    (endAt 2 25) (endAt 3 37) hbefore hafter rfl
    (fun t ht => Option.isNone_iff_eq_none.mp (List.all_eq_true.mp hfaults t ht)) hclean
  refine ⟨hclean, h.1.mpr ?_⟩
  rw [hsites, hlength]
  decide

/-- Behind an attribute the same note is refused, and the attribute is lost. -/
theorem closing_note_taken_for_feature :
    let p := (Source.ofString "class A feature x: T\nend" "a.e").lex.parse
    let q := (Source.ofString "class A feature x: T\nnote t: \"s\"\nend" "a.e").lex.parse
    p.diagnostics = [] ∧ q.errors = [⟨.noteWithoutBody, ⟨3, 1, 33⟩⟩] ∧
      p.tree.classes.flatMap ClassDecl.features ≠ [] ∧
        q.tree.classes.flatMap ClassDecl.features = [] := by
  intro p q
  obtain ⟨hclean, hread⟩ :
      p.diagnostics = [] ∧ (p.tree.classes.flatMap ClassDecl.features).length = 1 := by
    cbv
  obtain ⟨hrefused, hlost⟩ :
      q.errors = [⟨.noteWithoutBody, ⟨3, 1, 33⟩⟩] ∧
        q.tree.classes.flatMap ClassDecl.features = [] := by
    cbv
  refine ⟨hclean, hrefused, fun hnil => ?_, hlost⟩
  rw [hnil] at hread
  cases hread

end ContractLint
