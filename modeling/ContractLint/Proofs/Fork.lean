/-
# Reading up to a fork

Two texts share a first part.  In the one an `end` follows, in the other a note.  A reader that
stays in front of the fork cannot tell the two apart: it looks at one item behind what it takes, and
what it asks of that item, `end` and `note` answer alike.  Neither is a symbol, an identifier or a
string, and a list of keywords that holds one of the two holds both, or else the reader takes the
item.

So for each reader there is one lemma: what it reads from `c` within the items that a `Fork` has in
common, it reads from `d`.  This file has the readers up to those of routines, and those of headers.
Spans are the delicate ones, since they end at a keyword they do not take: a span that ends in front
of the fork is the same in any case, one that ends at the fork only if `note` is among its stops
(`spanLengthFrom_fork`).
-/
import ContractLint.Proofs.SpanEntry

namespace ContractLint

/-! ## 1. Forks -/

/-- `c` and `d` share their next `k` items; `left` follows in the one and `right` in the other. -/
structure Fork (left right : List Item) (k : Nat) (c d : Cursor) : Prop where
  split : ∃ front, front.length = k ∧ c.items = front ++ left ∧ d.items = front ++ right
  left_end : ∃ i is, left = i :: is ∧ i.token.kind = .keyword .kwEnd
  right_note : ∃ i is, right = i :: is ∧ i.token.kind = .keyword .kwNote

/-- A keyword is none of others. -/
theorem Token.isKeyword_eq_false {t : Token} {w : Keyword} (h : t.kind = .keyword w)
    {ws : List Keyword} (hw : w ∉ ws) : t.isKeyword ws = false := by
  unfold isKeyword
  rw [h]
  simpa using hw

/-- A computation goes on with the result of its first step. -/
theorem bind_eq_ok {ε α β : Type} {x : Except ε α} {f : α → Except ε β} {a : α} {b : β}
    (hx : x = .ok a) (hf : f a = .ok b) : x >>= f = .ok b := by
  rw [hx]
  exact hf

namespace Fork

variable {left right : List Item} {k n : Nat} {c d : Cursor} {p : Token → Bool}

theorem items_ne_nil (h : Fork left right k c d) : c.items ≠ [] ∧ d.items ≠ [] := by
  obtain ⟨front, -, hc, hd⟩ := h.split
  obtain ⟨i, is, rfl, -⟩ := h.left_end
  obtain ⟨j, js, rfl, -⟩ := h.right_note
  rw [hc, hd]
  exact ⟨List.append_ne_nil_of_right_ne_nil _ (List.cons_ne_nil _ _),
    List.append_ne_nil_of_right_ne_nil _ (List.cons_ne_nil _ _)⟩

theorem items_drop (h : Fork left right k c d) :
    (c.drop k).items = left ∧ (d.drop k).items = right := by
  obtain ⟨front, rfl, hc, hd⟩ := h.split
  rw [Cursor.drop, Cursor.drop, hc, hd]
  exact ⟨List.drop_left, List.drop_left⟩

theorem drop (h : Fork left right k c d) (hn : n ≤ k) :
    Fork left right (k - n) (c.drop n) (d.drop n) := by
  obtain ⟨front, rfl, hc, hd⟩ := h.split
  refine ⟨⟨front.drop n, List.length_drop, ?_, ?_⟩, h.left_end, h.right_note⟩
  · rw [Cursor.drop, hc, List.drop_append_of_le_length hn]
  · rw [Cursor.drop, hd, List.drop_append_of_le_length hn]

/-- A test that tells `end` and `note` not apart has the same outcome. -/
theorem test (h : Fork left right k c d) (hp : ∀ t u : Token, t.kind = .keyword .kwEnd →
    u.kind = .keyword .kwNote → p u = p t) : d.test p = c.test p := by
  obtain ⟨front, -, hc, hd⟩ := h.split
  obtain ⟨i, is, rfl, hi⟩ := h.left_end
  obtain ⟨j, js, rfl, hj⟩ := h.right_note
  rw [Cursor.test, Cursor.test, hc, hd]
  cases front with
  | nil => exact hp _ _ hi hj
  | cons x front => rfl

/-- In front of the fork every test has the same outcome. -/
theorem test_of_pos (h : Fork left right k c d) (hk : 0 < k) : d.test p = c.test p := by
  obtain ⟨front, rfl, hc, hd⟩ := h.split
  obtain ⟨x, front, rfl⟩ := List.exists_cons_of_length_pos hk
  rw [Cursor.test, Cursor.test, hc, hd]
  rfl

theorem atKeyword_of_pos (h : Fork left right k c d) (hk : 0 < k) (ws : List Keyword) :
    d.atKeyword ws = c.atKeyword ws :=
  h.test_of_pos hk

/-- In front of the fork both cursors are at one item. -/
theorem exists_cons (h : Fork left right k c d) (hk : 0 < k) :
    ∃ i is js, c.items = i :: is ∧ d.items = i :: js := by
  obtain ⟨front, rfl, hc, hd⟩ := h.split
  obtain ⟨i, front, rfl⟩ := List.exists_cons_of_length_pos hk
  exact ⟨i, front ++ left, front ++ right, hc, hd⟩

/-- A test that fails at `end` succeeds only in front of the fork. -/
theorem pos_of_test (h : Fork left right k c d)
    (hend : ∀ t : Token, t.kind = .keyword .kwEnd → p t = false) (hp : c.test p = true) :
    0 < k := by
  obtain ⟨front, rfl, hc, -⟩ := h.split
  obtain ⟨i, is, rfl, hi⟩ := h.left_end
  cases front with
  | nil =>
    rw [Cursor.test, hc] at hp
    exact absurd hp (Bool.eq_false_iff.mp (hend _ hi))
  | cons x front => exact Nat.succ_pos _

variable (h : Fork left right k c d)
include h

theorem atKeyword (ws : List Keyword) (hws : .kwEnd ∉ ws ∧ .kwNote ∉ ws) :
    d.atKeyword ws = c.atKeyword ws :=
  h.test fun _ _ ht hu =>
    (Token.isKeyword_eq_false hu hws.2).trans (Token.isKeyword_eq_false ht hws.1).symm

theorem atBoundary : d.atKeyword boundaryKeywords = c.atKeyword boundaryKeywords :=
  h.test fun _ _ ht hu => by rw [Token.isKeyword, Token.isKeyword, ht, hu]; rfl

theorem optKeyword (ws : List Keyword) (hws : .kwEnd ∉ ws ∧ .kwNote ∉ ws) :
    d.optKeyword ws = c.optKeyword ws := by
  rw [Cursor.optKeyword, Cursor.optKeyword, h.atKeyword ws hws]

theorem pos_of_head {i : Item} {is : List Item} (hc : c.items = i :: is) {ws : List Keyword}
    (hi : i.token.isKeyword ws = false) (hws : .kwEnd ∈ ws) : 0 < k := by
  refine h.pos_of_test (p := fun t => !t.isKeyword ws) (fun t ht => ?_) ?_
  · simpa [Token.isKeyword, ht] using hws
  · rw [Cursor.test, hc, List.head?_cons, Option.any_some, hi]
    rfl

theorem atSymbol (ss : List Symbol) : d.atSymbol ss = c.atSymbol ss :=
  h.test fun _ _ ht hu => by rw [Token.isSymbol, Token.isSymbol, ht, hu]

theorem optSymbol (ss : List Symbol) : d.optSymbol ss = c.optSymbol ss := by
  rw [Cursor.optSymbol, Cursor.optSymbol, h.atSymbol]

theorem atIdentifier : d.atIdentifier = c.atIdentifier :=
  h.test fun _ _ ht hu => by rw [Token.isIdentifier, Token.isIdentifier, ht, hu]; rfl

theorem atString : d.atString = c.atString :=
  h.test fun _ _ ht hu => by rw [Token.isString, Token.isString, ht, hu]; rfl

theorem pos_of_atKeyword {ws : List Keyword} (hc : c.atKeyword ws = true) (hend : .kwEnd ∉ ws) :
    0 < k :=
  h.pos_of_test (fun _ ht => Token.isKeyword_eq_false ht hend) hc

theorem pos_of_atSymbol {ss : List Symbol} (hc : c.atSymbol ss = true) : 0 < k :=
  h.pos_of_test (fun _ ht => by rw [Token.isSymbol, ht]) hc

theorem pos_of_atIdentifier (hc : c.atIdentifier = true) : 0 < k :=
  h.pos_of_test (fun _ ht => by rw [Token.isIdentifier, ht]; rfl) hc

theorem pos_of_atString (hc : c.atString = true) : 0 < k :=
  h.pos_of_test (fun _ ht => by rw [Token.isString, ht]; rfl) hc

theorem next (hk : 0 < k) : Fork left right (k - 1) c.next d.next :=
  h.drop hk

theorem peek (hk : 0 < k) : d.peek = c.peek := by
  obtain ⟨front, rfl, hc, hd⟩ := h.split
  obtain ⟨x, front, rfl⟩ := List.exists_cons_of_length_pos hk
  rw [Cursor.peek, Cursor.peek, hc, hd]
  rfl

theorem items_take (hn : n ≤ k) : d.items.take n = c.items.take n := by
  obtain ⟨front, rfl, hc, hd⟩ := h.split
  rw [hc, hd, List.take_append_of_le_length hn, List.take_append_of_le_length hn]

theorem take (hn : n ≤ k) : d.take n = c.take n := by
  rw [Cursor.take, Cursor.take, h.items_take hn]

theorem last? (hn : n ≤ k) : d.last? n = c.last? n := by
  rw [Cursor.last?, Cursor.last?, h.items_take hn]

/-- A run that ends in front of the fork. -/
theorem takeWhile {q : Item → Bool} (hk : (c.items.takeWhile q).length < k) :
    d.items.takeWhile q = c.items.takeWhile q := by
  obtain ⟨front, rfl, hc, hd⟩ := h.split
  have hfront : ¬ (front.takeWhile q).length = front.length := by
    intro hall
    rw [hc, List.takeWhile_append, if_pos hall, List.length_append] at hk
    omega
  rw [hc, hd, List.takeWhile_append, List.takeWhile_append, if_neg hfront, if_neg hfront]

/-- A run that `end` does not end, ends in front of the fork if it ends within it. -/
theorem length_takeWhile_lt {q : Item → Bool}
    (hend : ∀ i : Item, i.token.kind = .keyword .kwEnd → q i = true)
    (hk : (c.items.takeWhile q).length ≤ k) : (c.items.takeWhile q).length < k := by
  obtain ⟨front, rfl, hc, -⟩ := h.split
  obtain ⟨i, is, rfl, hi⟩ := h.left_end
  by_contra hlt
  have hfront : (front.takeWhile q).length = front.length := by
    by_contra hall
    rw [hc, List.takeWhile_append, if_neg hall] at hlt
    have hle := (List.takeWhile_sublist q (l := front)).length_le
    omega
  rw [hc, List.takeWhile_append, if_pos hfront, List.takeWhile_cons_of_pos (hend i hi),
    List.length_append, List.length_cons] at hk
  omega

end Fork

/-! ## 2. Types and entities -/

theorem bracketLengthFrom_fork {i : Item} {is right : List Item} : ∀ (depth : Nat)
    (front : List Item), bracketLengthFrom depth (front ++ i :: is) ≤ front.length →
      bracketLengthFrom depth (front ++ right) = bracketLengthFrom depth (front ++ i :: is)
  | depth, [], h => by
    have hpos : 0 < bracketLengthFrom depth (i :: is) := by
      unfold bracketLengthFrom
      repeat' split
      all_goals exact Nat.succ_pos _
    exact absurd h (Nat.not_le_of_lt hpos)
  | depth, x :: front, h => by
    have ih (depth' : Nat) : bracketLengthFrom depth' (front ++ i :: is) ≤ front.length →
        bracketLengthFrom depth' (front ++ right) = bracketLengthFrom depth' (front ++ i :: is) :=
      bracketLengthFrom_fork depth' front
    simp only [List.cons_append, bracketLengthFrom, List.length_cons] at h ⊢
    repeat' split at h
    · simp [*, ih (depth + 1) (by omega)]
    · simp [*]
    · simp [*, ih (depth - 1) (by omega)]
    · simp [*, ih depth (by omega)]

theorem qualifierLength_fork {i j : Item} {is js : List Item}
    (hi : i.token.kind = .keyword .kwEnd) (hj : j.token.kind = .keyword .kwNote) :
    ∀ front : List Item, qualifierLength (front ++ j :: js) = qualifierLength (front ++ i :: is)
  | [] => by
    have hnone : ∀ (x : Item) (xs : List Item) (w : Keyword), x.token.kind = .keyword w →
        qualifierLength (x :: xs) = 0 := by
      intro x xs w hx
      cases xs with
      | nil => rfl
      | cons y ys => simp [qualifierLength, Token.isSymbol, hx]
    exact (hnone j js _ hj).trans (hnone i is _ hi).symm
  | [x] => by simp [qualifierLength, Token.isIdentifier, hi, hj]
  | x :: y :: front => by
    have ih := @qualifierLength_fork i j is js hi hj front
    simp only [List.cons_append, qualifierLength, ih]

namespace Fork

variable {left right : List Item} {k n : Nat} {c d : Cursor} (h : Fork left right k c d)
include h

theorem same_readTypeMark : readTypeMark d = readTypeMark c := by
  unfold readTypeMark
  rw [h.atKeyword [.kwAttached] (by decide), h.atKeyword [.kwDetachable] (by decide), h.atSymbol,
    h.atSymbol]

theorem bracketLength (hn : c.bracketLength ≤ k) : d.bracketLength = c.bracketLength := by
  obtain ⟨front, rfl, hc, hd⟩ := h.split
  obtain ⟨i, is, rfl, -⟩ := h.left_end
  unfold Cursor.bracketLength at hn ⊢
  rw [h.atSymbol]
  split
  · rename_i hopen
    rw [if_pos hopen, hc] at hn
    rw [hc, hd, bracketLengthFrom_fork 0 front hn]
  · rfl

theorem same_qualifierLength : qualifierLength d.items = qualifierLength c.items := by
  obtain ⟨front, -, hc, hd⟩ := h.split
  obtain ⟨i, is, rfl, hi⟩ := h.left_end
  obtain ⟨j, js, rfl, hj⟩ := h.right_note
  rw [hc, hd, qualifierLength_fork hi hj]

/-- A type ends with a name, so it ends in front of the fork wherever it is read. -/
theorem same_typeLength (hn : typeLength c = .ok n) (hk : n ≤ k) :
    0 < k ∧ typeLength d = .ok n := by
  unfold typeLength at hn ⊢
  rw [h.atKeyword [.kwLike] (by decide), h.atIdentifier, h.atKeyword [.kwTuple] (by decide)]
  split at hn
  · rename_i hlike
    have hpos := h.pos_of_atKeyword hlike (by decide)
    have hnext := h.next hpos
    rw [hnext.atIdentifier, hnext.atKeyword [.kwCurrent] (by decide)]
    split at hn
    · cases hn
      rw [(h.drop (show 2 ≤ k by omega)).same_qualifierLength]
      exact ⟨hpos, by simp [*]⟩
    · cases hn
  · split at hn
    · cases hn
      have hnext := h.next (show 0 < k by omega)
      rw [hnext.bracketLength (by omega)]
      exact ⟨by omega, by simp [*]⟩
    · cases hn

theorem same_typeSkipped (hk : typeSkipped c ≤ k) : typeSkipped d = typeSkipped c := by
  unfold typeSkipped at hk ⊢
  rw [h.same_readTypeMark]
  dsimp only at hk ⊢
  rw [(h.drop (show (readTypeMark c).2 ≤ k by omega)).optKeyword _ (by decide)]
  rw [(h.drop (by omega)).optKeyword _ (by decide)]

theorem same_readType {t : TypeRef} (hn : readType c = .ok (t, n)) (hk : n ≤ k) :
    readType d = .ok (t, n) := by
  obtain ⟨m, hm, hn⟩ := exists_of_bind_eq_ok hn
  have hsum : typeSkipped c + m = n := congrArg Prod.snd (Except.ok.inj hn)
  have htype : ⟨renderTokens ((c.drop (typeSkipped c)).take m),
      (readTypeMark c).1, c.peek.location⟩ = t := congrArg Prod.fst (Except.ok.inj hn)
  have hcore := h.drop (show typeSkipped c ≤ k by omega)
  obtain ⟨hpos, hlength⟩ := hcore.same_typeLength hm (by omega)
  have hskipped := h.same_typeSkipped (by omega)
  rw [← hskipped] at hlength
  refine bind_eq_ok hlength (congrArg Except.ok (Prod.ext ?_ ?_))
  · rw [← htype, ← h.same_readTypeMark, ← h.peek (by omega), ← hcore.take (by omega), ← hskipped]
    rfl
  · rw [← hsum, ← hskipped]
    rfl

theorem same_readNames {role : NameRole} {names : List Name} (hn : readNames role c = .ok names)
    (hk : 2 * names.length - 1 ≤ k) : readNames role d = .ok names := by
  induction c using readNames.induct role generalizing k d names with
  | case1 c hc _ hcomma rest hrest ih =>
    rw [readNames, dif_pos hc, if_pos hcomma, hrest] at hn
    cases hn
    rw [List.length_cons] at hk
    have hpos := h.pos_of_atIdentifier hc
    have hnext := h.next hpos
    have hcomma' := hnext.pos_of_atSymbol hcomma
    rw [readNames, dif_pos (h.atIdentifier.trans hc), if_pos ((hnext.atSymbol _).trans hcomma),
      ih (h.drop (by omega)) hrest (by omega), h.peek hpos]
  | case2 c hc _ hcomma e he ih =>
    rw [readNames, dif_pos hc, if_pos hcomma, he] at hn
    cases hn
  | case3 c hc _ hcomma =>
    rw [readNames, dif_pos hc, if_neg hcomma] at hn
    cases hn
    have hpos := h.pos_of_atIdentifier hc
    rw [readNames, dif_pos (h.atIdentifier.trans hc),
      if_neg (by rwa [(h.next hpos).atSymbol]), h.peek hpos]
  | case4 c hc =>
    rw [readNames, dif_neg hc] at hn
    cases hn

theorem same_readEntities {role : NameRole} {group : Taken (List Entity)}
    (hn : readEntities role c = .ok group) (hk : group.taken ≤ k) :
    readEntities role d = .ok group := by
  obtain ⟨names, hnames, hn⟩ := exists_of_bind_eq_ok hn
  dsimp only at hn
  split at hn
  · rename_i hcolon
    obtain ⟨⟨type, m⟩, htype, hn⟩ := exists_of_bind_eq_ok hn
    cases hn
    dsimp only at hk
    have hafter := h.drop (show 2 * names.length - 1 ≤ k by omega)
    refine bind_eq_ok (h.same_readNames hnames (by omega)) ?_
    dsimp only
    rw [if_pos ((hafter.atSymbol _).trans hcolon)]
    refine bind_eq_ok ((hafter.next (by omega)).same_readType htype (by omega)) ?_
    dsimp only
    simp only [(h.drop (show 2 * names.length - 1 + 1 + m ≤ k by omega)).optSymbol]
    rfl
  · cases hn

theorem same_readArgumentGroups {entities : List Entity}
    (hn : readArgumentGroups c = .ok (entities, n)) (hk : n < k) :
    readArgumentGroups d = .ok (entities, n) := by
  induction c using readArgumentGroups.induct generalizing k d entities n with
  | case1 c hclose =>
    rw [readArgumentGroups, if_pos hclose] at hn
    rw [readArgumentGroups, if_pos ((h.atSymbol _).trans hclose), hn]
  | case2 c hclose hc _ ih =>
    rw [readArgumentGroups, if_neg hclose, dif_pos hc] at hn
    obtain ⟨group, hgroup, hn⟩ := exists_of_bind_eq_ok hn
    obtain ⟨⟨rest, m⟩, hrest, hn⟩ := exists_of_bind_eq_ok hn
    cases hn
    rw [readArgumentGroups, if_neg (by rwa [h.atSymbol]), dif_pos (h.atIdentifier.trans hc)]
    refine bind_eq_ok (h.same_readEntities hgroup (by omega)) ?_
    exact bind_eq_ok (ih group (h.drop (by omega)) hrest (by omega)) rfl
  | case3 c hclose hc =>
    rw [readArgumentGroups, if_neg hclose, dif_neg hc] at hn
    cases hn

theorem same_readArguments {entities : List Entity} (hn : readArguments c = .ok (entities, n))
    (hk : n ≤ k) : readArguments d = .ok (entities, n) := by
  unfold readArguments at hn ⊢
  rw [h.atSymbol]
  split at hn
  · rename_i hopen
    obtain ⟨⟨groups, m⟩, hgroups, hn⟩ := exists_of_bind_eq_ok hn
    cases hn
    rw [if_pos hopen]
    exact bind_eq_ok ((h.next (by omega)).same_readArgumentGroups hgroups (by omega)) rfl
  · rename_i hopen
    rw [if_neg hopen, hn]

theorem same_readLocalGroups {entities : List Entity} (hn : readLocalGroups c = .ok (entities, n))
    (hk : n ≤ k) : readLocalGroups d = .ok (entities, n) := by
  induction c using readLocalGroups.induct generalizing k d entities n with
  | case1 c hc _ ih =>
    rw [readLocalGroups, dif_pos hc] at hn
    obtain ⟨group, hgroup, hn⟩ := exists_of_bind_eq_ok hn
    obtain ⟨⟨rest, m⟩, hrest, hn⟩ := exists_of_bind_eq_ok hn
    cases hn
    rw [readLocalGroups, dif_pos (h.atIdentifier.trans hc)]
    refine bind_eq_ok (h.same_readEntities hgroup (by omega)) ?_
    exact bind_eq_ok (ih group (h.drop (by omega)) hrest (by omega)) rfl
  | case2 c hc =>
    rw [readLocalGroups, dif_neg hc] at hn
    rw [readLocalGroups, dif_neg (by rwa [h.atIdentifier]), hn]

theorem same_readLocals {entities : List Entity} (hn : readLocals c = .ok (entities, n))
    (hk : n ≤ k) : readLocals d = .ok (entities, n) := by
  unfold readLocals at hn ⊢
  rw [h.atKeyword _ (by decide)]
  split at hn
  · rename_i hlocal
    obtain ⟨⟨groups, m⟩, hgroups, hn⟩ := exists_of_bind_eq_ok hn
    cases hn
    rw [if_pos hlocal]
    exact bind_eq_ok ((h.next (by omega)).same_readLocalGroups hgroups (by omega)) rfl
  · rename_i hlocal
    rw [if_neg hlocal, hn]

end Fork

/-! ## 3. Spans and routines -/

/-- Of the token that follows, the end of a span depends only on whether it is a string. -/
theorem endsAt_congr {stops hard : List Keyword} (n : Nesting) (t : Token)
    {next next' : Option Token} (h : isManifest next = isManifest next') :
    endsAt stops hard n t next = endsAt stops hard n t next' := by
  simp only [endsAt, Nesting.stopsAt, h]

theorem isManifest_fork {i j : Token} {is js : List Token} (hi : i.kind = .keyword .kwEnd)
    (hj : j.kind = .keyword .kwNote) (front : List Token) :
    isManifest (front ++ j :: js).head? = isManifest (front ++ i :: is).head? := by
  cases front with
  | nil =>
    show j.isString = i.isString
    rw [Token.isString, Token.isString, hi, hj]
    rfl
  | cons x front => rfl

/-- A span that ends in front of the fork is the same, and so is one that ends at the fork if it
would end at `note` as well. -/
theorem spanLengthFrom_fork {stops : List Keyword} {i j : Token} {is js : List Token}
    (hi : i.kind = .keyword .kwEnd) (hj : j.kind = .keyword .kwNote) :
    ∀ (n : Nesting) (front : List Token),
      spanLengthFrom stops [.kwFeature] n (front ++ i :: is) ≤ front.length →
      (.kwNote ∈ stops ∨ spanLengthFrom stops [.kwFeature] n (front ++ i :: is) < front.length) →
      spanLengthFrom stops [.kwFeature] n (front ++ j :: js) =
        spanLengthFrom stops [.kwFeature] n (front ++ i :: is)
  | n, [], hle, h => by
    have hnote := h.resolve_right (Nat.not_lt_zero _)
    rw [List.nil_append, List.nil_append, spanLengthFrom_cons, spanLengthFrom_cons] at *
    -- the span ends at `end`, so no block is open there
    by_cases hends : endsAt stops [.kwFeature] n i is.head? = true
    · obtain ⟨hdepth, -⟩ : n.depth = 0 ∧ .kwEnd ∈ stops := by
        simpa [endsAt, hi, Nesting.stopsAt] using hends
      have hstop : endsAt stops [.kwFeature] n j js.head? = true := by
        simp [endsAt, hj, Nesting.stopsAt, hdepth, hnote]
      rw [if_pos hends, if_pos hstop]
    · rw [if_neg hends] at hle
      exact absurd hle (Nat.not_succ_le_zero _)
  | n, x :: front, hle, h => by
    have hnext := @isManifest_fork i j is js hi hj front
    have ih := @spanLengthFrom_fork stops i j is js hi hj
      (n.feed x (front ++ i :: is).head?) front
    simp only [List.cons_append, spanLengthFrom_cons, List.length_cons, endsAt_congr n x hnext,
      n.feed_congr x hnext] at hle h ⊢
    split
    · rfl
    · rename_i hgo
      rw [if_neg hgo] at hle h
      rw [ih (Nat.le_of_succ_le_succ hle) (h.imp_right Nat.lt_of_succ_lt_succ)]

namespace Fork

variable {left right : List Item} {k n : Nat} {c d : Cursor} (h : Fork left right k c d)
include h

theorem same_spanLength {stops : List Keyword} (hn : spanLength stops [.kwFeature] c.tokens ≤ k)
    (hstop : .kwNote ∈ stops ∨ spanLength stops [.kwFeature] c.tokens < k) :
    spanLength stops [.kwFeature] d.tokens = spanLength stops [.kwFeature] c.tokens := by
  obtain ⟨front, rfl, hc, hd⟩ := h.split
  obtain ⟨i, is, rfl, hi⟩ := h.left_end
  obtain ⟨j, js, rfl, hj⟩ := h.right_note
  rw [Cursor.tokens, hc, List.map_append, ← List.length_map (f := Item.token)] at hn hstop
  rw [Cursor.tokens, Cursor.tokens, hc, hd, List.map_append, List.map_append]
  exact spanLengthFrom_fork hi hj {} _ hn hstop

theorem bodyLength (hn : c.bodyLength < k) : d.bodyLength = c.bodyLength :=
  h.same_spanLength (Nat.le_of_lt hn) (.inr hn)

theorem enclosed {close : Symbol} (hn : (c.enclosed close).2 ≤ k) :
    d.enclosed close = c.enclosed close := by
  have hnext := h.next (k := k) (by simp only [Cursor.enclosed] at hn; omega)
  have hlt : (c.next.items.takeWhile fun i => !i.token.isSymbol [close]).length < k - 1 := by
    refine hnext.length_takeWhile_lt (fun i hi => by rw [Token.isSymbol, hi]; rfl) ?_
    simp only [Cursor.enclosed] at hn
    omega
  simp only [Cursor.enclosed, hnext.takeWhile hlt, (hnext.drop (Nat.le_of_lt hlt)).optSymbol]

theorem same_readOnceKeys (hn : (readOnceKeys c).2 ≤ k) : readOnceKeys d = readOnceKeys c := by
  unfold readOnceKeys at hn ⊢
  rw [h.atSymbol]
  split
  · rename_i hopen
    rw [if_pos hopen] at hn
    rw [h.enclosed hn]
  · rfl

theorem same_externalLength (hn : externalLength c = .ok n) : externalLength d = .ok n := by
  unfold externalLength at hn ⊢
  rw [h.atString]
  split at hn
  · rename_i hstring
    have hnext := h.next (h.pos_of_atString hstring)
    rw [if_pos hstring, hnext.atKeyword _ (by decide)]
    split at hn
    · rename_i halias
      have hpos := hnext.pos_of_atKeyword halias (by decide)
      rw [if_pos halias, (h.drop (show 2 ≤ k by omega)).atString]
      split at hn
      · rename_i hname
        rw [if_pos hname, hn]
      · cases hn
    · rename_i halias
      rw [if_neg halias, hn]
  · cases hn

/-- A body that ends in front of the fork. -/
theorem same_readBody {body : Taken Body} (hn : readBody c = .ok body) (hk : body.taken < k) :
    readBody d = .ok body := by
  have hnext := h.next (show 0 < k by omega)
  have hat {w : Keyword} (hw : c.atKeyword [w] = true) : d.atKeyword [w] = true :=
    (h.atKeyword_of_pos (by omega) [w]).trans hw
  refine BodyReading.readBody_eq ?_
  cases readBody_cases hn with
  | instructions hdo =>
    dsimp only at hk
    have hread := BodyReading.instructions (hat hdo)
    simpa only [hnext.bodyLength (show c.next.bodyLength < k - 1 by omega),
      hnext.take (show c.next.bodyLength ≤ k - 1 by omega)] using hread
  | @once keys n honce hkeys =>
    dsimp only at hk
    have hkeys' := (hnext.same_readOnceKeys (by rw [hkeys]; dsimp only; omega)).trans hkeys
    have hspan := h.drop (show 1 + n ≤ k by omega)
    have hread := BodyReading.once (hat honce) hkeys'
    simpa only [hspan.bodyLength (show (c.drop (1 + n)).bodyLength < k - (1 + n) by omega),
      hspan.take (show (c.drop (1 + n)).bodyLength ≤ k - (1 + n) by omega)] using hread
  | attributive hattribute =>
    dsimp only at hk
    have hread := BodyReading.attributive (hat hattribute)
    simpa only [hnext.bodyLength (show c.next.bodyLength < k - 1 by omega),
      hnext.take (show c.next.bodyLength ≤ k - 1 by omega)] using hread
  | deferred hdeferred => exact .deferred (hat hdeferred)
  | external hexternal hlength =>
    exact .external (hat hexternal) (hnext.same_externalLength hlength)

theorem same_readBlock {g : BlockGrammar} (hg : .kwEnd ∉ g.extension ∧ .kwNote ∉ g.extension)
    (hk : (readBlock g c).taken ≤ k) (hstop : .kwNote ∈ g.stops ∨ (readBlock g c).taken < k) :
    readBlock g d = readBlock g c := by
  unfold readBlock at hk hstop ⊢
  dsimp only at hk hstop ⊢
  have hnext := h.next (show 0 < k by omega)
  have hextended := hnext.optKeyword _ hg
  have hinner := h.drop (show 1 + c.next.optKeyword g.extension ≤ k by omega)
  have hspan : spanLength g.stops [.kwFeature] _ = spanLength g.stops [.kwFeature] _ :=
    hinner.same_spanLength (by omega) (hstop.imp_right (by omega))
  have hinside := hinner.take (n := spanLength g.stops [.kwFeature]
    (c.drop (1 + c.next.optKeyword g.extension)).tokens) (by omega)
  simp only [hextended, hspan, h.peek (show 0 < k by omega), hinside]

theorem same_readBlock? {g : BlockGrammar} {w : Keyword} (hw : w ≠ .kwEnd ∧ w ≠ .kwNote)
    (hg : .kwEnd ∉ g.extension ∧ .kwNote ∉ g.extension) (hk : (readBlock? g w c).2 < k) :
    readBlock? g w d = readBlock? g w c := by
  unfold readBlock? at hk ⊢
  rw [h.atKeyword [w] (by simpa [eq_comm] using hw)]
  split
  · rename_i hword
    rw [if_pos hword] at hk
    rw [h.same_readBlock hg (Nat.le_of_lt hk) (.inr hk)]
  · rfl

theorem same_rescueLength (hk : rescueLength c < k) : rescueLength d = rescueLength c := by
  unfold rescueLength at hk ⊢
  rw [h.atKeyword _ (by decide)]
  split
  · rename_i hrescue
    rw [if_pos hrescue] at hk
    rw [(h.next (by omega)).bodyLength (by omega)]
  · rfl

theorem same_readRoutine {routine : Taken Routine} (hn : readRoutine c = .ok routine)
    (hk : routine.taken ≤ k) : readRoutine d = .ok routine := by
  obtain ⟨n₁, n₂, n₄, n₅, body, hrequire, hlocals, hbody, -, hensure, hrescue, hend, htaken⟩ :=
    readRoutine_cases hn
  have hlast := h.drop (show n₁ + n₂ + body.taken + n₄ + n₅ ≤ k by omega)
  have hrequire' := h.same_readBlock? (g := .precondition) (w := .kwRequire) (by decide) (by decide)
    (by rw [hrequire]; omega)
  have hlocals' := (h.drop (by omega)).same_readLocals hlocals (by omega)
  have hbody' := (h.drop (by omega)).same_readBody hbody (by omega)
  have hensure' := (h.drop (show n₁ + n₂ + body.taken ≤ k by omega)).same_readBlock?
    (g := .postcondition) (w := .kwEnsure) (by decide) (by decide) (by rw [hensure]; omega)
  have hrescue' := (h.drop (show n₁ + n₂ + body.taken + n₄ ≤ k by omega)).same_rescueLength
    (by omega)
  have hend' : (d.drop (n₁ + n₂ + body.taken + n₄ + n₅)).atKeyword [.kwEnd] = true :=
    (hlast.atKeyword_of_pos (by omega) _).trans hend
  rw [← hn]
  simp only [readRoutine, hrequire', hrequire, hlocals', hlocals, hbody', hbody, hensure', hensure,
    hrescue', hrescue, bind, Except.bind, hend', hend, if_true, hlast.peek (by omega)]

/-! ## 4. Headers -/

/-- A header is not empty. -/
theorem same_readHeader {header : Header} (hn : readHeader c = .ok (header, n)) (hk : n ≤ k) :
    2 ≤ n ∧ readHeader d = .ok (header, n) := by
  unfold readHeader at hn ⊢
  simp only [List.length_map] at hn ⊢
  split at hn
  · rename_i hclass
    split at hn
    · rename_i hname
      cases hn
      have hmarks := h.takeWhile (q := fun i => i.token.isKeyword classMarks) (by omega)
      have hkeyword := h.drop
        (show (c.items.takeWhile fun i => i.token.isKeyword classMarks).length ≤ k by omega)
      have hnext := hkeyword.next (by omega)
      rw [hmarks, hkeyword.atKeyword _ (by decide), if_pos hclass, hnext.atIdentifier,
        if_pos hname, hnext.peek (by omega)]
      exact ⟨Nat.le_add_left 2 _, rfl⟩
    · cases hn
  · cases hn

theorem same_recoverHeader (hclean : (recoverHeader c).errors = [])
    (hk : (recoverHeader c).taken ≤ k) :
    2 ≤ (recoverHeader c).taken ∧ recoverHeader d = recoverHeader c := by
  unfold recoverHeader at hclean hk ⊢
  split at hclean
  · rename_i header n hheader
    rw [hheader] at hk
    obtain ⟨htwo, hheader'⟩ := h.same_readHeader hheader hk
    rw [hheader']
    exact ⟨htwo, rfl⟩
  · cases hclean

theorem same_readGenerics (hk : (readGenerics c).2 ≤ k) : readGenerics d = readGenerics c := by
  have hle : c.bracketLength ≤ k := hk
  rw [readGenerics, readGenerics, h.bracketLength hle, h.items_take hle]

end Fork

end ContractLint
