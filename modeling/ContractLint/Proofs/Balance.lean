/-
# Spans end at the matching `end`

A span is found by a scan that keeps a stack of open blocks.  What the scan should find is said by a
grammar that has no stack: `Balanced` tokens are blocks, each with its own `end`, and tokens that
neither open nor close anything.  One word makes the grammar depend on its place.  In the head of a
routine, between `require` or `local` and the body, a `do` or `once` starts the body and a further
`require` or `local` starts nothing; elsewhere each of them opens a block.

* `Balanced.passes`: over balanced tokens the scan comes back to the blocks it started in, whatever
  they are, and stops nowhere on the way.  The induction is on the grammar, and what it carries from
  one place to the next is only whether the innermost open block is a routine's head.
* `exists_matches`: at every depth that is left behind, some token opened the block that is still
  open; so an `end` that closes a block inside a span closes one that was opened there.
* `spanEnd_matching`: balanced tokens are taken as a whole, and what is taken is closed.
-/
import ContractLint.Proofs.SpanEntry

namespace ContractLint

/-! ## 1. Balanced tokens -/

/-- The words that open or close blocks, or turn the head of a routine into its body. -/
def blockWords : List Keyword :=
  [.kwEnd, .kwIf, .kwFrom, .kwAcross, .kwInspect, .kwCheck, .kwDebug, .kwRequire, .kwLocal, .kwDo,
    .kwOnce]

/-- The words that open a compound instruction. -/
def compoundWords : List Keyword :=
  [.kwIf, .kwFrom, .kwAcross, .kwInspect, .kwCheck, .kwDebug]

/-- Whether `t` starts the body of a routine when `next` follows it.  A `once` in front of a string
is part of the string. -/
def Token.startsBody (t : Token) (next : Option Token) : Bool :=
  t.isKeyword [.kwDo] || (t.isKeyword [.kwOnce] && !isManifest next)

/-- Where tokens stand: in the head of a routine, or anywhere else. -/
inductive Place where
  | body
  | head
deriving DecidableEq

/-- `Balanced p ts outer`: the tokens `ts` are balanced at the place `p`, and `outer` are those of
them that stand outside all of their blocks; of a block that is the word that opens it. -/
inductive Balanced : Place → List Token → List Token → Prop where
  | nil (p : Place) : Balanced p [] []
  | plain {p : Place} {t : Token} {ts outer : List Token} (heof : t.isEof = false)
      (ht : t.isKeyword blockWords = false) (h : Balanced p ts outer) :
      Balanced p (t :: ts) (t :: outer)
  /-- A `once` that is part of the string behind it. -/
  | manifest {p : Place} {t : Token} {ts outer : List Token} (ht : t.isKeyword [.kwOnce] = true)
      (hstring : isManifest ts.head? = true) (h : Balanced p ts outer) :
      Balanced p (t :: ts) outer
  | compound {p : Place} {t e : Token} {inner rest deeper outer : List Token}
      (ht : t.isKeyword compoundWords = true) (hinner : Balanced .body inner deeper)
      (he : e.isKeyword [.kwEnd] = true) (hrest : Balanced p rest outer) :
      Balanced p (t :: (inner ++ e :: rest)) (t :: outer)
  /-- An inline routine without a head. -/
  | inline {t e : Token} {inner rest deeper outer : List Token}
      (ht : t.startsBody (inner ++ e :: rest).head? = true) (hinner : Balanced .body inner deeper)
      (he : e.isKeyword [.kwEnd] = true) (hrest : Balanced .body rest outer) :
      Balanced .body (t :: (inner ++ e :: rest)) (t :: outer)
  /-- An inline routine with a head and a body. -/
  | routine {t d e : Token} {before inner rest above deeper outer : List Token}
      (ht : t.isKeyword [.kwRequire, .kwLocal] = true) (hbefore : Balanced .head before above)
      (hd : d.startsBody (inner ++ e :: rest).head? = true)
      (hinner : Balanced .body inner deeper) (he : e.isKeyword [.kwEnd] = true)
      (hrest : Balanced .body rest outer) :
      Balanced .body (t :: (before ++ d :: (inner ++ e :: rest))) (t :: outer)
  /-- A further clause of a head. -/
  | further {t : Token} {ts outer : List Token} (ht : t.isKeyword [.kwRequire, .kwLocal] = true)
      (h : Balanced .head ts outer) : Balanced .head (t :: ts) (t :: outer)

/-! ## 2. What one token does -/

/-- A token that is one of some keywords is of the kind of one of them. -/
theorem Token.kind_of_mem_isKeyword {t : Token} {ws : List Keyword} (h : t.isKeyword ws = true) :
    ∃ w ∈ ws, t.kind = .keyword w := by
  unfold isKeyword at h
  split at h
  · exact ⟨_, List.contains_iff_mem.mp h, ‹_›⟩
  · cases h

theorem Token.isEof_of_isKeyword {t : Token} {ws : List Keyword} (h : t.isKeyword ws = true) :
    t.isEof = false := by
  obtain ⟨w, -, hkind⟩ := kind_of_mem_isKeyword h
  rw [isEof, hkind]
  rfl

theorem Token.isEof_of_startsBody {t : Token} {next : Option Token}
    (h : t.startsBody next = true) : t.isEof = false := by
  rcases Bool.or_eq_true_iff.mp h with hdo | honce
  · exact isEof_of_isKeyword hdo
  · exact isEof_of_isKeyword (Bool.and_eq_true_iff.mp honce).1

/-- Above the open blocks `fs`, tokens stand at the place `p`: in a routine's head if that is the
innermost of them. -/
def Place.Above (p : Place) (fs : List Frame) : Prop :=
  fs.head? = some .routineHead ↔ p = .head

theorem Place.Above.head?_ne {fs : List Frame} (h : body.Above fs) :
    fs.head? ≠ some .routineHead := by
  intro hhead
  cases h.mp hhead

theorem Place.body_above_compound (c : Compound) (fs : List Frame) :
    body.Above (.compound c :: fs) := by
  simp [Above]

theorem Place.body_above_routineBody (fs : List Frame) : body.Above (.routineBody :: fs) := by
  simp [Above]

namespace Nesting

theorem frames_feed_plain {t : Token} (ht : t.isKeyword blockWords = false) (n : Nesting)
    (next : Option Token) : (n.feed t next).frames = n.frames := by
  unfold feed
  cases hkind : t.kind with
  | operator s => exact frames_feedSymbol n s
  | keyword w =>
    simp only [Token.isKeyword, hkind] at ht
    cases w <;> first | rfl | cases ht
  | _ => rfl

theorem feed_manifest {t : Token} (ht : t.isKeyword [.kwOnce] = true) (n : Nesting)
    {next : Option Token} (hnext : isManifest next = true) : n.feed t next = n := by
  rw [feed, Token.kind_of_isKeyword ht]
  simp [feedKeyword, Compound.ofKeyword?, hnext]

theorem frames_feed_compound {t : Token} (ht : t.isKeyword compoundWords = true) (n : Nesting) :
    ∃ c, ∀ next, (n.feed t next).frames = .compound c :: n.frames := by
  obtain ⟨w, hw, hkind⟩ := Token.kind_of_mem_isKeyword ht
  simp only [compoundWords, List.mem_cons, List.not_mem_nil, or_false] at hw
  simp only [feed, hkind]
  rcases hw with rfl | rfl | rfl | rfl | rfl | rfl <;> exact ⟨_, fun _ => rfl⟩

theorem feed_end {t : Token} (ht : t.isKeyword [.kwEnd] = true) (n : Nesting)
    (next : Option Token) : n.feed t next = n.pop := by
  rw [feed, Token.kind_of_isKeyword ht]
  rfl

theorem feed_head {t : Token} (ht : t.isKeyword [.kwRequire, .kwLocal] = true) (n : Nesting)
    (next : Option Token) : n.feed t next = n.openHead := by
  obtain ⟨w, hw, hkind⟩ := Token.kind_of_mem_isKeyword ht
  rw [feed, hkind]
  simp only [List.mem_cons, List.not_mem_nil, or_false] at hw
  rcases hw with rfl | rfl <;> rfl

theorem feed_startsBody {t : Token} {next : Option Token} (ht : t.startsBody next = true)
    (n : Nesting) : n.feed t next = n.openBody := by
  rcases Bool.or_eq_true_iff.mp ht with hdo | honce
  · rw [feed, Token.kind_of_isKeyword hdo]
    rfl
  · obtain ⟨honce, hnext⟩ := Bool.and_eq_true_iff.mp honce
    rw [Bool.not_eq_true'] at hnext
    rw [feed, Token.kind_of_isKeyword honce]
    simp [feedKeyword, Compound.ofKeyword?, hnext]

/-- A head is opened where no head is innermost. -/
theorem frames_openHead {n : Nesting} (hn : Place.body.Above n.frames) :
    n.openHead.frames = .routineHead :: n.frames := by
  rw [openHead, top?, if_neg hn.head?_ne]
  rfl

/-- A head that is open already is not opened again. -/
theorem openHead_of_head {n : Nesting} (hn : Place.head.Above n.frames) : n.openHead = n := by
  rw [openHead, top?, if_pos (hn.mpr rfl)]

/-- A body is opened where no head is innermost. -/
theorem frames_openBody {n : Nesting} (hn : Place.body.Above n.frames) :
    n.openBody.frames = .routineBody :: n.frames := by
  rw [openBody, top?, if_neg hn.head?_ne]
  rfl

/-- A body takes the place of its head. -/
theorem frames_openBody_of_head {n : Nesting} {fs : List Frame}
    (h : n.frames = .routineHead :: fs) : n.openBody.frames = .routineBody :: fs := by
  rw [openBody, if_pos (by rw [top?, h]; rfl), push, pop, h]
  rfl

/-- A token opens at most one block. -/
theorem depth_feed_le (n : Nesting) (t : Token) (next : Option Token) :
    (n.feed t next).depth ≤ n.depth + 1 := by
  have hpush (f : Frame) : (n.push f).depth ≤ n.depth + 1 := Nat.le_refl _
  have hpop : n.pop.depth ≤ n.depth + 1 := by
    rw [depth, pop, List.length_tail]
    exact Nat.le_succ_of_le (Nat.sub_le _ _)
  have hhead : n.openHead.depth ≤ n.depth + 1 := by
    unfold openHead
    split
    · exact Nat.le_succ _
    · exact hpush _
  have hbody : n.openBody.depth ≤ n.depth + 1 := by
    unfold openBody
    split
    · -- the body takes the place of the head, which is there
      simp only [depth, push, pop, List.length_cons, List.length_tail]
      omega
    · exact hpush _
  unfold feed
  cases t.kind with
  | operator s =>
    dsimp only
    rw [depth, frames_feedSymbol]
    exact Nat.le_succ _
  | keyword w =>
    dsimp only
    unfold feedKeyword
    split
    · exact hpush _
    split
    · exact hpop
    · exact hhead
    · exact hhead
    · exact hbody
    · split
      · exact Nat.le_succ _
      · exact hbody
    · exact Nat.le_succ _
  | _ => exact Nat.le_succ _

end Nesting

/-! ## 3. Balanced tokens are passed over -/

section Span

variable {stops hard : List Keyword}

/-- No span ends at `t` inside a block, nor at a `t` that is no stop or part of a string. -/
theorem endsAt_eq_false {n : Nesting} {t : Token} {next : Option Token} (heof : t.isEof = false)
    (hhard : t.isKeyword hard = false)
    (hfree : n.depth ≠ 0 ∨ t.isKeyword stops = false ∨
      t.isKeyword [.kwOnce] = true ∧ isManifest next = true) :
    endsAt stops hard n t next = false := by
  unfold endsAt
  cases hkind : t.kind with
  | eof => simp [Token.isEof, hkind] at heof
  | keyword w =>
    simp only [Token.isKeyword, hkind, List.contains_cons, List.contains_nil, Bool.or_false,
      beq_iff_eq] at hhard hfree
    change n.stopsAt stops hard w next = false
    rw [Nesting.stopsAt, hhard, Bool.false_or]
    rcases hfree with hdepth | hstops | ⟨rfl, hstring⟩
    · rw [beq_false_of_ne hdepth]
      rfl
    · rw [hstops, Bool.and_false]
      rfl
    · rw [hstring]
      exact Bool.and_false _
  | _ => rfl

/-- A span ends at a stop that is met outside all blocks and is not part of a string. -/
theorem endsAt_of_stop {n : Nesting} {t : Token} {next : Option Token} (hn : n.depth = 0)
    (hstop : t.isKeyword stops = true)
    (honce : ¬ (t.isKeyword [.kwOnce] = true ∧ isManifest next = true)) :
    endsAt stops hard n t next = true := by
  obtain ⟨w, hw, hkind⟩ := Token.kind_of_mem_isKeyword hstop
  simp only [Token.isKeyword, hkind, List.contains_cons, List.contains_nil, Bool.or_false,
    beq_iff_eq, not_and, Bool.not_eq_true] at honce
  have hstring : (w == .kwOnce && isManifest next) = false := by
    by_cases hw : w = .kwOnce
    · rw [honce hw, Bool.and_false]
    · rw [beq_false_of_ne hw, Bool.false_and]
  rw [endsAt, hkind]
  change n.stopsAt stops hard w next = true
  rw [Nesting.stopsAt, hn, hstring, List.contains_iff_mem.mpr hw]
  exact Bool.or_true _

variable (stops hard) in
/-- From the nesting `n` on, a span goes over all of `ts`, whatever follows them, and the blocks `fs`
are open behind them. -/
def Passes (n : Nesting) (ts : List Token) (fs : List Frame) : Prop :=
  ∀ rest, ∃ m : Nesting, m.frames = fs ∧
    spanLengthFrom stops hard n (ts ++ rest) = ts.length + spanLengthFrom stops hard m rest

namespace Passes

variable {n : Nesting} {t : Token} {xs ys : List Token} {fs gs : List Frame}

theorem nil (n : Nesting) : Passes stops hard n [] n.frames :=
  fun _ => ⟨n, rfl, (Nat.zero_add _).symm⟩

theorem append (hxs : Passes stops hard n xs fs)
    (hys : ∀ m : Nesting, m.frames = fs → Passes stops hard m ys gs) :
    Passes stops hard n (xs ++ ys) gs := by
  intro rest
  obtain ⟨m, hm, hlength⟩ := hxs (ys ++ rest)
  obtain ⟨k, hk, hlength'⟩ := hys m hm rest
  refine ⟨k, hk, ?_⟩
  rw [List.append_assoc, hlength, hlength', List.length_append, Nat.add_assoc]

theorem cons (ht : ∀ rest, endsAt stops hard n t (xs ++ rest).head? = false)
    (hxs : ∀ rest, Passes stops hard (n.feed t (xs ++ rest).head?) xs fs) :
    Passes stops hard n (t :: xs) fs := by
  intro rest
  obtain ⟨m, hm, hlength⟩ := hxs rest rest
  refine ⟨m, hm, ?_⟩
  rw [List.cons_append, spanLengthFrom_cons, ht rest, if_neg Bool.false_ne_true, hlength,
    List.length_cons]
  omega

/-- A block that is open around `xs` is closed behind them. -/
theorem close {f : Frame} {e : Token} (hxs : Passes stops hard n xs (f :: fs))
    (he : e.isKeyword [.kwEnd] = true) (hhard : e.isKeyword hard = false)
    (hys : ∀ m : Nesting, m.frames = fs → Passes stops hard m ys gs) :
    Passes stops hard n (xs ++ e :: ys) gs := by
  refine hxs.append fun m hm => cons (fun rest => ?_) fun rest => ?_
  · have hdepth : m.depth ≠ 0 := by simp [Nesting.depth, hm]
    exact endsAt_eq_false (Token.isEof_of_isKeyword he) hhard (.inl hdepth)
  · rw [Nesting.feed_end he]
    exact hys _ (by rw [Nesting.pop, hm]; rfl)

end Passes

variable (stops) in
/-- Met where the blocks `fs` are open, no token of `outer` is a stop outside all blocks. -/
def Sheltered (fs : List Frame) (outer : List Token) : Prop :=
  fs ≠ [] ∨ ∀ t ∈ outer, t.isKeyword stops = false

namespace Sheltered

variable {fs : List Frame} {t : Token} {outer : List Token}

theorem inside (f : Frame) (fs : List Frame) (outer : List Token) :
    Sheltered stops (f :: fs) outer :=
  .inl (List.cons_ne_nil f fs)

theorem tail (h : Sheltered stops fs (t :: outer)) : Sheltered stops fs outer :=
  h.imp_right fun h u hu => h u (List.mem_cons_of_mem t hu)

theorem endsAt_head (h : Sheltered stops fs (t :: outer)) (heof : t.isEof = false)
    (hhard : t.isKeyword hard = false) {n : Nesting} (hn : n.frames = fs) (next : Option Token) :
    endsAt stops hard n t next = false := by
  refine endsAt_eq_false heof hhard (h.imp (fun h => ?_) fun h => .inl (h t List.mem_cons_self))
  rwa [Nesting.depth, hn, ne_eq, List.length_eq_zero_iff]

end Sheltered

/-- **A span goes over balanced tokens**, and leaves the blocks open that were open before them. -/
theorem Balanced.passes {p : Place} {ts outer : List Token} (h : Balanced p ts outer)
    (hhard : ∀ t ∈ ts, t.isKeyword hard = false) {fs : List Frame} (hp : p.Above fs)
    (hfree : Sheltered stops fs outer) :
    ∀ n : Nesting, n.frames = fs → Passes stops hard n ts fs := by
  induction h generalizing fs with
  | nil =>
    rintro n rfl
    exact .nil n
  | plain heof ht _ ih =>
    obtain ⟨hthard, hhard⟩ := List.forall_mem_cons.mp hhard
    intro n hn
    refine .cons (fun _ => hfree.endsAt_head heof hthard hn _) fun rest => ?_
    exact ih hhard hp hfree.tail _ ((Nesting.frames_feed_plain ht n _).trans hn)
  | @manifest p t ts outer ht hstring _ ih =>
    obtain ⟨hthard, hhard⟩ := List.forall_mem_cons.mp hhard
    have hnext (rest : List Token) : isManifest (ts ++ rest).head? = true := by
      cases ts with
      | nil => cases hstring
      | cons u us => exact hstring
    intro n hn
    refine .cons (fun rest => ?_) fun rest => ?_
    · exact endsAt_eq_false (Token.isEof_of_isKeyword ht) hthard (.inr (.inr ⟨ht, hnext rest⟩))
    · rw [Nesting.feed_manifest ht n (hnext rest)]
      exact ih hhard hp hfree n hn
  | compound ht _ he _ ihinner ihrest =>
    simp only [List.forall_mem_cons, List.forall_mem_append] at hhard
    obtain ⟨hthard, hinnerhard, hehard, hresthard⟩ := hhard
    rintro n rfl
    refine .cons (fun _ => ?_) fun rest => ?_
    · exact hfree.endsAt_head (Token.isEof_of_isKeyword ht) hthard rfl _
    obtain ⟨c, hopen⟩ := Nesting.frames_feed_compound ht n
    have hinner := ihinner hinnerhard (Place.body_above_compound c _) (.inside _ n.frames _)
    exact (hinner _ (hopen _)).close he hehard (ihrest hresthard hp hfree.tail)
  | inline ht _ he _ ihinner ihrest =>
    simp only [List.forall_mem_cons, List.forall_mem_append] at hhard
    obtain ⟨hthard, hinnerhard, hehard, hresthard⟩ := hhard
    rintro n rfl
    refine .cons (fun _ => ?_) fun rest => ?_
    · exact hfree.endsAt_head (Token.isEof_of_startsBody ht) hthard rfl _
    rw [List.head?_append_of_ne_nil _ (by simp), Nesting.feed_startsBody ht]
    have hinner := ihinner hinnerhard (Place.body_above_routineBody _) (.inside _ n.frames _)
    exact (hinner _ (Nesting.frames_openBody hp)).close he hehard (ihrest hresthard hp hfree.tail)
  | routine ht _ hd _ he _ ihbefore ihinner ihrest =>
    simp only [List.forall_mem_cons, List.forall_mem_append] at hhard
    obtain ⟨hthard, hbeforehard, hdhard, hinnerhard, hehard, hresthard⟩ := hhard
    rintro n rfl
    refine .cons (fun _ => ?_) fun rest => ?_
    · exact hfree.endsAt_head (Token.isEof_of_isKeyword ht) hthard rfl _
    rw [Nesting.feed_head ht]
    have hbefore := ihbefore hbeforehard (iff_of_true rfl rfl) (.inside _ _ _) _
      (Nesting.frames_openHead hp)
    refine hbefore.append fun m hm => .cons (fun _ => ?_) fun rest => ?_
    · exact endsAt_eq_false (Token.isEof_of_startsBody hd) hdhard (.inl (by simp [Nesting.depth, hm]))
    rw [List.head?_append_of_ne_nil _ (by simp), Nesting.feed_startsBody hd]
    have hinner := ihinner hinnerhard (Place.body_above_routineBody _) (.inside _ n.frames _)
    exact (hinner _ (Nesting.frames_openBody_of_head hm)).close he hehard
      (ihrest hresthard hp hfree.tail)
  | further ht _ ih =>
    obtain ⟨hthard, hhard⟩ := List.forall_mem_cons.mp hhard
    rintro n rfl
    refine .cons (fun _ => ?_) fun rest => ?_
    · exact hfree.endsAt_head (Token.isEof_of_isKeyword ht) hthard rfl _
    rw [Nesting.feed_head ht, Nesting.openHead_of_head hp]
    exact ih hhard hp hfree.tail n rfl

/-- Where a span ends, a token of the kind is met that ends it. -/
theorem endsAt_behind {pre : List Token} {t : Token} {rest : List Token} :
    ∀ {n : Nesting}, spanLengthFrom stops hard n (pre ++ t :: rest) = pre.length →
      endsAt stops hard (n.along pre (t :: rest)) t rest.head? = true := by
  induction pre with
  | nil =>
    intro n hlength
    rw [List.nil_append, spanLengthFrom_cons] at hlength
    split at hlength
    · rename_i hends
      exact hends
    · cases hlength
  | cons u pre ih =>
    intro n hlength
    rw [List.cons_append, spanLengthFrom_cons] at hlength
    split at hlength
    · cases hlength
    · exact ih (Nat.succ.inj hlength)

end Span

/-! ## 4. Which token opened a block -/

namespace Nesting

theorem along_nil (n : Nesting) (ts : List Token) : n.along ts [] = n.feedAll ts := by
  induction ts generalizing n with
  | nil => rfl
  | cons t ts ih => rw [along, List.append_nil, ih, feedAll]

/-- Of what follows, nesting depends only on whether a string comes first. -/
theorem along_congr {rest rest' : List Token}
    (h : isManifest rest.head? = isManifest rest'.head?) (n : Nesting) (pre : List Token) :
    n.along pre rest = n.along pre rest' := by
  induction pre generalizing n with
  | nil => rfl
  | cons t pre ih =>
    have hnext : isManifest (pre ++ rest).head? = isManifest (pre ++ rest').head? := by
      cases pre with
      | nil => exact h
      | cons u pre => rfl
    rw [along, along, n.feed_congr t hnext, ih]

/-- The nesting at which the token of `ts` at the index `k` is met. -/
def metAt (ts : List Token) (k : Nat) : Nesting :=
  ({} : Nesting).along (ts.take k) (ts.drop k)

theorem metAt_succ {ts : List Token} {k : Nat} {t : Token} (ht : ts[k]? = some t) :
    metAt ts (k + 1) = (metAt ts k).feed t (ts.drop (k + 1)).head? := by
  obtain ⟨hk, hget⟩ := List.getElem?_eq_some_iff.mp ht
  have hdrop : ts.drop k = [t] ++ ts.drop (k + 1) := by
    rw [List.drop_eq_getElem_cons hk, hget]
    rfl
  rw [metAt, List.take_add_one, ht, Option.toList_some, along_append, ← hdrop]
  rfl

theorem depth_metAt_succ_le (ts : List Token) (k : Nat) :
    (metAt ts (k + 1)).depth ≤ (metAt ts k).depth + 1 := by
  cases hget : ts[k]? with
  | some t =>
    rw [metAt_succ hget]
    exact depth_feed_le _ t _
  | none =>
    have hlength := List.getElem?_eq_none_iff.mp hget
    rw [metAt, metAt, List.take_of_length_le hlength, List.take_of_length_le (by omega),
      List.drop_of_length_le hlength, List.drop_of_length_le (by omega)]
    exact Nat.le_succ _

/-- The token at the index `j` closes the block that the one at `k` opened: the block is open behind
`k` up to `j`, and it is not behind `j`. -/
structure Matches (ts : List Token) (k j : Nat) : Prop where
  lt : k < j
  stays : ∀ l, k < l → l ≤ j → (metAt ts k).depth < (metAt ts l).depth
  closes : (metAt ts (j + 1)).depth = (metAt ts k).depth

/-- **Every open block was opened by some token**, the last one met at the depth around it. -/
theorem exists_opens (ts : List Token) : ∀ (j : Nat) {d : Nat}, d < (metAt ts j).depth →
    ∃ k < j, (metAt ts k).depth = d ∧ ∀ l, k < l → l ≤ j → d < (metAt ts l).depth
  | 0, _, hd => absurd hd (Nat.not_lt_zero _)
  | j + 1, d, hd => by
    by_cases hbefore : d < (metAt ts j).depth
    · -- the block was open already
      obtain ⟨k, hk, hdepth, hstays⟩ := exists_opens ts j hbefore
      refine ⟨k, Nat.lt_succ_of_lt hk, hdepth, fun l hkl hl => ?_⟩
      rcases Nat.lt_succ_iff_lt_or_eq.mp (Nat.lt_succ_of_le hl) with hl | rfl
      · exact hstays l hkl (Nat.le_of_lt_succ hl)
      · exact hd
    · have hle := depth_metAt_succ_le ts j
      refine ⟨j, Nat.lt_succ_self j, by omega, fun l hjl hl => ?_⟩
      obtain rfl : l = j + 1 := by omega
      exact hd

/-- **An `end` that closes a block closes one that some token opened.** -/
theorem exists_matches {ts : List Token} {j : Nat} {e : Token} (he : ts[j]? = some e)
    (hend : e.isKeyword [.kwEnd] = true) (hdepth : (metAt ts j).depth ≠ 0) :
    ∃ k, Matches ts k j := by
  obtain ⟨k, hk, hdepth', hstays⟩ := exists_opens ts j (Nat.sub_one_lt hdepth)
  refine ⟨k, hk, fun l hkl hl => hdepth'.symm ▸ hstays l hkl hl, ?_⟩
  rw [metAt_succ he, feed_end hend, hdepth', pop, depth, depth, List.length_tail]

end Nesting

/-! ## 5. Spans -/

/-- **What a span takes is closed**: no block is left open, and every `end` closes a block that was
opened in the span. -/
theorem span_closed {stops hard : List Keyword} (hend : stops.contains .kwEnd = true)
    {ts : List Token} {t : Token} (ht : ts[spanLength stops hard ts]? = some t)
    (hstop : t.isKeyword stops = true) (hhard : t.isKeyword hard = false) :
    let span := ts.take (spanLength stops hard ts)
    (({} : Nesting).feedAll span).frames = [] ∧
      ∀ j e, span[j]? = some e → e.isKeyword [.kwEnd] = true → ∃ k, Nesting.Matches span k j := by
  intro span
  obtain ⟨hlt, hget⟩ := List.getElem?_eq_some_iff.mp ht
  have hspan : span.length = spanLength stops hard ts := List.length_take_of_le (Nat.le_of_lt hlt)
  have hts : ts = span ++ t :: ts.drop (spanLength stops hard ts + 1) := by
    rw [← hget, ← List.drop_eq_getElem_cons hlt, List.take_append_drop]
  generalize ts.drop (spanLength stops hard ts + 1) = rest at hts
  obtain ⟨w, hw, hkind⟩ := Token.kind_of_mem_isKeyword hstop
  -- what follows the span is no string, so the span is nested alone as it is in the text
  have halone : isManifest (t :: rest).head? = isManifest ([] : List Token).head? := by
    simp [isManifest, Token.isString, hkind]
  have hlength : spanLengthFrom stops hard {} (span ++ t :: rest) = span.length := by
    rw [← hts, hspan]
    rfl
  refine ⟨?_, fun j e he hkeyword => ?_⟩
  · have hends := endsAt_behind hlength
    rw [endsAt, hkind] at hends
    rw [Token.isKeyword, hkind] at hhard
    change hard.contains w = false at hhard
    change Nesting.stopsAt _ stops hard w _ = true at hends
    rw [Nesting.stopsAt, hhard, Bool.false_or, Bool.and_eq_true, Bool.and_eq_true, beq_iff_eq] at hends
    rw [← Nesting.along_nil, ← Nesting.along_congr halone]
    exact List.length_eq_zero_iff.mp hends.1.1
  · obtain ⟨hj, hget⟩ := List.getElem?_eq_some_iff.mp he
    have hdrop : span.drop j = e :: span.drop (j + 1) := by
      rw [List.drop_eq_getElem_cons hj, hget]
    refine Nesting.exists_matches he hkeyword fun hdepth => ?_
    refine not_exits_of_lt_span stops hard hend (Nat.le_of_eq hlength.symm) ?_
    refine ⟨span.take j, e, span.drop (j + 1), ?_, hkeyword, ?_⟩
    · rw [← hdrop, List.take_append_drop]
    · have hsame : ({} : Nesting).along (span.take j) (e :: span.drop (j + 1) ++ t :: rest) =
          ({} : Nesting).along (span.take j) (e :: span.drop (j + 1)) :=
        Nesting.along_congr (by rfl) _ _
      rwa [hsame, ← hdrop]

/-- **Spans end at the matching `end`.**  Balanced tokens are taken as a whole, up to the stop that
follows them, if no stop stands outside all of their blocks and no hard stop among them.  And a span
that ends at a stop is closed: no block is left open, and every `end` in it closes a block that was
opened in it. -/
theorem spanEnd_matching (stops hard : List Keyword) :
    (∀ (before span outer : List Token) (t : Token) (behind : List Token),
      Balanced .body span outer → (∀ u ∈ outer, u.isKeyword stops = false) →
      (∀ u ∈ span, u.isKeyword hard = false) → t.isKeyword stops = true →
      ¬ (t.isKeyword [.kwOnce] = true ∧ isManifest behind.head? = true) →
        spanEnd (before ++ span ++ t :: behind) before.length stops hard =
          before.length + span.length) ∧
    ∀ (ts : List Token) (start : Nat) (t : Token), stops.contains .kwEnd = true →
      let stop := spanEnd ts start stops hard
      let span := (ts.drop start).take (stop - start)
      ts[stop]? = some t → t.isKeyword stops = true → t.isKeyword hard = false →
        (({} : Nesting).feedAll span).frames = [] ∧
          ∀ j e, span[j]? = some e → e.isKeyword [.kwEnd] = true →
            ∃ k, Nesting.Matches span k j := by
  refine ⟨fun before span outer t behind hspan houter hhard hstop honce => ?_, ?_⟩
  · have habove : Place.body.Above [] := by simp [Place.Above]
    have hpasses := hspan.passes hhard habove (.inr houter)
    obtain ⟨m, hm, hlength⟩ := hpasses {} rfl (t :: behind)
    have hends : endsAt stops hard m t behind.head? = true :=
      endsAt_of_stop (by rw [Nesting.depth, hm]; rfl) hstop honce
    rw [spanLengthFrom_cons, if_pos hends] at hlength
    rw [spanEnd, List.append_assoc, List.drop_left, spanLength, hlength, Nat.add_zero]
  · intro ts start t hend stop span ht hstop hhard
    have hlength : stop - start = spanLength stops hard (ts.drop start) :=
      Nat.add_sub_cancel_left start _
    unfold span
    rw [hlength]
    refine span_closed hend ?_ hstop hhard
    rw [List.getElem?_drop]
    exact ht

/-- `across l as c loop require p do once "s" y end end z`, without locations. -/
def sampleBlocks : List Token :=
  [.keyword .kwAcross, .identifier, .keyword .kwAs, .identifier, .keyword .kwLoop,
    .keyword .kwRequire, .identifier, .keyword .kwDo, .keyword .kwOnce, .string, .identifier,
    .keyword .kwEnd, .keyword .kwEnd, .identifier].map fun kind => ⟨kind, "", default, [], none⟩

/-- The loop and the identifier behind it stand outside all blocks. -/
theorem balanced_sampleBlocks :
    Balanced .body sampleBlocks (sampleBlocks.take 1 ++ sampleBlocks.drop 13) := by
  have hhead : Balanced .head ((sampleBlocks.drop 6).take 1) _ := .plain rfl rfl (.nil _)
  have hbody : Balanced .body ((sampleBlocks.drop 8).take 3) _ :=
    .manifest rfl rfl (.plain rfl rfl (.plain rfl rfl (.nil _)))
  have hroutine : Balanced .body ((sampleBlocks.drop 5).take 7) _ :=
    .routine rfl hhead rfl hbody rfl (.nil _)
  have hinner : Balanced .body ((sampleBlocks.drop 1).take 11) _ :=
    .plain rfl rfl (.plain rfl rfl (.plain rfl rfl (.plain rfl rfl hroutine)))
  exact .compound rfl hinner rfl (.plain rfl rfl (.nil _))

/-- The span behind one token and in front of an `end`; the inner `end` closes the routine. -/
theorem spanEnd_matching_sample :
    let closing : Token := ⟨.keyword .kwEnd, "", default, [], none⟩
    let ts := [default] ++ sampleBlocks ++ closing :: []
    spanEnd ts 1 [.kwEnd] [.kwFeature] = 15 ∧ ts[15]? = some closing ∧
      (({} : Nesting).feedAll sampleBlocks).frames = [] ∧
      ∃ k, Nesting.Matches sampleBlocks k 11 := by
  intro closing ts
  obtain ⟨hcomplete, hsound⟩ := spanEnd_matching [.kwEnd] [.kwFeature]
  have hstop : spanEnd ts 1 [.kwEnd] [.kwFeature] = 15 :=
    hcomplete [default] sampleBlocks _ closing [] balanced_sampleBlocks (by decide) (by decide)
      rfl (by decide)
  have hspan := hsound ts 1 closing rfl
  rw [hstop] at hspan
  obtain ⟨hclosed, hends⟩ := hspan rfl rfl rfl
  exact ⟨hstop, rfl, hclosed, hends 11 _ rfl rfl⟩

end ContractLint
