/-
# Where the entries of a span begin

The loop invariants and checks of a body are found by a flat scan, and each of them searches for
the end of its own span.  So spans nest, and nothing keeps them from overlapping.  Two facts make
up for that.

* An entry of a span begins where NO block and no bracket is open, counted from the start of the
  span.  From there on the scan runs as it would from anywhere else, so the entry depends only on
  the tokens from its first one on and on the keywords that end the span (`exists_entry`).
* A scan that starts inside blocks runs like one that starts outside all of them, above frames that
  it retains, until it meets an `end` that closes none of its own blocks (`frames_along`).

From the second fact: an entry of a check and an entry of a loop invariant begin at one place only
if the loop invariant runs over the `end` of its loop (`exits_of_shared`).
-/
import ContractLint.Proofs.Place
import ContractLint.Proofs.Point

namespace ContractLint

/-! ## 1. Nesting along tokens -/

theorem Token.kind_of_isKeyword {t : Token} {w : Keyword} (h : t.isKeyword [w] = true) :
    t.kind = .keyword w := by
  unfold isKeyword at h
  cases hkind : t.kind <;> simp_all

namespace Nesting

/-- The nesting after the tokens `pre`, when `rest` follows them. -/
def along (n : Nesting) : List Token → List Token → Nesting
  | [], _ => n
  | t :: pre, rest => (n.feed t (pre ++ rest).head?).along pre rest

theorem along_append (n : Nesting) (xs ys rest : List Token) :
    n.along (xs ++ ys) rest = (n.along xs (ys ++ rest)).along ys rest := by
  induction xs generalizing n with
  | nil => rfl
  | cons t xs ih =>
    rw [List.cons_append, along, ih, along, List.append_assoc]

/-- One of the tokens `pre` is an `end` that closes a block which was open at the start. -/
def Exits (n : Nesting) (pre rest : List Token) : Prop :=
  ∃ inside e after, pre = inside ++ e :: after ∧ e.isKeyword [.kwEnd] = true ∧
    (n.along inside (e :: after ++ rest)).depth = 0

theorem exits_cons {n : Nesting} {t : Token} {pre rest : List Token} :
    n.Exits (t :: pre) rest ↔
      t.isKeyword [.kwEnd] = true ∧ n.depth = 0 ∨ (n.feed t (pre ++ rest).head?).Exits pre rest := by
  constructor
  · rintro ⟨inside, e, after, hpre, hend, hdepth⟩
    rcases List.cons_eq_append_iff.mp hpre with ⟨rfl, he⟩ | ⟨inside, rfl, rfl⟩
    · obtain ⟨rfl, rfl⟩ := List.cons.inj he
      exact .inl ⟨hend, hdepth⟩
    · refine .inr ⟨inside, e, after, rfl, hend, ?_⟩
      rwa [along, ← List.append_assoc] at hdepth
  · rintro (⟨hend, hdepth⟩ | ⟨inside, e, after, rfl, hend, hdepth⟩)
    · exact ⟨[], t, pre, rfl, hend, hdepth⟩
    · refine ⟨t :: inside, e, after, rfl, hend, ?_⟩
      rwa [along, ← List.append_assoc]

@[simp] theorem frames_feedSymbol (n : Nesting) (s : Symbol) :
    (n.feedSymbol s).frames = n.frames := by
  unfold feedSymbol
  split <;> rfl

/-- One token is read alike above retained frames, unless it closes the first of them.  The head of
a routine must not be among them on top, since a body would turn it into its own. -/
theorem frames_feed {n m : Nesting} {base : List Frame} (h : m.frames = n.frames ++ base)
    (hbase : base.head? ≠ some .routineHead) {t : Token} (next : Option Token)
    (hstays : ¬ (t.isKeyword [.kwEnd] = true ∧ n.depth = 0)) :
    (m.feed t next).frames = (n.feed t next).frames ++ base := by
  have htop : m.top? = some .routineHead ↔ n.top? = some .routineHead := by
    unfold top?
    rw [h]
    cases n.frames with
    | nil => simpa using hbase
    | cons f fs => rfl
  have hpush (f : Frame) : (m.push f).frames = (n.push f).frames ++ base := by
    simp [push, h]
  have hpop (hne : n.frames ≠ []) : m.frames.tail = n.frames.tail ++ base := by
    rw [h, List.tail_append_of_ne_nil hne]
  have hopen : m.openHead.frames = n.openHead.frames ++ base := by
    unfold openHead
    by_cases hhead : n.top? = some .routineHead
    · rwa [if_pos hhead, if_pos (htop.mpr hhead)]
    · rw [if_neg hhead, if_neg (mt htop.mp hhead)]
      exact hpush _
  have hbody : m.openBody.frames = n.openBody.frames ++ base := by
    unfold openBody
    by_cases hhead : n.top? = some .routineHead
    · have hne : n.frames ≠ [] := by
        rintro hnil
        simp [top?, hnil] at hhead
      rw [if_pos hhead, if_pos (htop.mpr hhead)]
      simp [push, pop, hpop hne]
    · rw [if_neg hhead, if_neg (mt htop.mp hhead)]
      exact hpush _
  unfold feed
  cases hkind : t.kind with
  | operator s => simpa using h
  | keyword w =>
    unfold feedKeyword
    dsimp only
    split
    · exact hpush _
    · split
      · -- the `end` of a block that was opened on the way
        refine hpop fun hnil => hstays ⟨?_, ?_⟩
        · simp [Token.isKeyword, hkind]
        · simp [depth, hnil]
      · exact hopen
      · exact hopen
      · exact hbody
      · split
        · exact h
        · exact hbody
      · exact h
  | _ => exact h

/-- **A scan retains the frames that were open at its start**, as long as it exits none of them. -/
theorem frames_along {base : List Frame} (hbase : base.head? ≠ some .routineHead)
    {pre rest : List Token} {n m : Nesting} (h : m.frames = n.frames ++ base)
    (hstays : ¬ n.Exits pre rest) :
    (m.along pre rest).frames = (n.along pre rest).frames ++ base := by
  induction pre generalizing n m with
  | nil => exact h
  | cons t pre ih =>
    rw [exits_cons, not_or] at hstays
    exact ih (frames_feed h hbase _ hstays.1) hstays.2

theorem eq_empty_of_level {n : Nesting} (h : n.level = 0) : n = {} := by
  obtain ⟨frames, brackets⟩ := n
  simp only [level, Nat.add_eq_zero_iff, List.length_eq_zero_iff] at h
  rw [h.1, h.2]

end Nesting

/-! ## 2. The marks of a span -/

section Span

variable (stops hard : List Keyword)

/-- Whether a span ends at the token `t`, which is met at nesting `n`. -/
def endsAt (n : Nesting) (t : Token) (next : Option Token) : Bool :=
  match t.kind with
  | .eof => true
  | .keyword w => n.stopsAt stops hard w next
  | _ => false

theorem spanLengthFrom_cons (n : Nesting) (t : Token) (ts : List Token) :
    spanLengthFrom stops hard n (t :: ts) =
      if endsAt stops hard n t ts.head? then 0
      else spanLengthFrom stops hard (n.feed t ts.head?) ts + 1 := by
  rw [spanLengthFrom, endsAt]
  cases t.kind <;> simp

theorem isEof_of_not_endsAt {n : Nesting} {t : Token} {next : Option Token}
    (h : ¬ endsAt stops hard n t next = true) : t.isEof = false := by
  unfold endsAt at h
  unfold Token.isEof
  cases hkind : t.kind <;> simp_all

/-- The tokens of the span that `ts` starts with at nesting `n`, marked where entries begin: the cut
and the marks in one pass. -/
def spanMarks (n : Nesting) (prev : Option Token) : List Token → List (Bool × Token)
  | [] => []
  | t :: ts =>
    if endsAt stops hard n t ts.head? then []
    else (beginsStatement n prev t, t) :: spanMarks (n.feed t ts.head?) (some t) ts

/-- **Cutting a span and marking it is one pass.**  The cut hides from the marks what follows the
last token of the span, but no mark depends on that. -/
theorem marked_span (n : Nesting) (prev : Option Token) (ts : List Token) :
    marked n prev (ts.take (spanLengthFrom stops hard n ts)) = spanMarks stops hard n prev ts := by
  induction ts generalizing n prev with
  | nil => rfl
  | cons t ts ih =>
    rw [spanLengthFrom_cons, spanMarks]
    by_cases hends : endsAt stops hard n t ts.head? = true
    · rw [if_pos hends, if_pos hends]
      rfl
    · have heof := isEof_of_not_endsAt stops hard hends
      rw [if_neg hends, if_neg hends, List.take_succ_cons, marked, heof, ← ih]
      refine congrArg _ ?_
      generalize hk : spanLengthFrom stops hard (n.feed t ts.head?) ts = k
      cases k with
      | zero => rfl
      | succ k => cases ts <;> rfl

/-- The tokens behind `t` that belong to the entry which begins with it, when `rest` follows: up to
where the next entry begins or the span ends. -/
def entryTail (t : Token) (rest : List Token) : List Token :=
  (grouped (spanMarks stops hard (({} : Nesting).feed t rest.head?) (some t) rest)).1

/-- The entry that begins with the token `t` when `rest` follows it. -/
def entryAt (t : Token) (rest : List Token) : Assertion :=
  .ofTokens t ((entryTail stops hard t rest).filter fun u => !isSeparator u && !u.isEof)

/-- A group begins at the first token, if that is marked, or is one of the others. -/
theorem mem_grouped_cons {begins : Bool} {t : Token} {ms : List (Bool × Token)} {g : List Token} :
    g ∈ (grouped ((begins, t) :: ms)).2 ↔
      begins = true ∧ g = t :: (grouped ms).1 ∨ g ∈ (grouped ms).2 := by
  cases begins <;> simp [grouped]

/-- What begins is no separator, and only the first token of a span begins an entry where blocks or
brackets may be open. -/
theorem level_of_beginsStatement {n : Nesting} {prev : Option Token} {t : Token}
    (h : beginsStatement n prev t = true) :
    isSeparator t = false ∧ (prev = none ∨ n.level = 0) := by
  unfold beginsStatement at h
  cases prev <;> simp_all

/-- Where the groups of a span begin, in a scan that is under way at nesting `n`.  Only the first
token of a span has none before it, and then nothing is open yet. -/
theorem exists_group {n : Nesting} {prev : Option Token} {ts : List Token} {g : List Token}
    (hstart : prev = none → n = {}) (hg : g ∈ (grouped (spanMarks stops hard n prev ts)).2) :
    ∃ pre t rest, ts = pre ++ t :: rest ∧
      pre.length < spanLengthFrom stops hard n ts ∧ n.along pre (t :: rest) = {} ∧
      isSeparator t = false ∧ t.isEof = false ∧ g = t :: entryTail stops hard t rest := by
  induction ts generalizing n prev with
  | nil => exact nomatch hg
  | cons t ts ih =>
    rw [spanMarks] at hg
    rw [spanLengthFrom_cons]
    by_cases hends : endsAt stops hard n t ts.head? = true
    · rw [if_pos hends] at hg
      exact nomatch hg
    rw [if_neg hends, mem_grouped_cons] at hg
    rw [if_neg hends]
    rcases hg with ⟨hbegins, rfl⟩ | hg
    · obtain ⟨hseparator, hfirst⟩ := level_of_beginsStatement hbegins
      obtain rfl : n = {} := by
        rcases hfirst with hfirst | hlevel
        · exact hstart hfirst
        · exact Nesting.eq_empty_of_level hlevel
      have heof := isEof_of_not_endsAt stops hard hends
      exact ⟨[], t, ts, rfl, Nat.succ_pos _, rfl, hseparator, heof, rfl⟩
    · obtain ⟨pre, u, rest, rfl, hlength, halong, hu⟩ := @ih (n.feed t ts.head?) (some t) nofun hg
      exact ⟨t :: pre, u, rest, rfl, Nat.succ_lt_succ hlength, halong, hu⟩

/-- **An entry of a span depends only on the tokens from its first one on**, and nothing is open
where it begins. -/
theorem exists_entry {ts : List Token} {a : Assertion}
    (ha : a ∈ assertions (ts.take (spanLength stops hard ts))) :
    ∃ pre t rest, ts = pre ++ t :: rest ∧ pre.length < spanLength stops hard ts ∧
      ({} : Nesting).along pre (t :: rest) = {} ∧ a = entryAt stops hard t rest := by
  obtain ⟨s, hs, hsome⟩ := List.mem_filterMap.mp ha
  obtain ⟨g, hg, rfl⟩ := List.mem_map.mp hs
  rw [spanLength, marked_span] at hg
  obtain ⟨pre, t, rest, hts, hlength, halong, hseparator, heof, rfl⟩ :=
    exists_group stops hard (fun _ => rfl) hg
  refine ⟨pre, t, rest, hts, hlength, halong, ?_⟩
  rw [List.filter_cons_of_pos (by simp [hseparator, heof])] at hsome
  exact (Option.some.inj hsome).symm

theorem location_entryAt (t : Token) (rest : List Token) :
    (entryAt stops hard t rest).location = t.location :=
  Assertion.location_ofTokens t _

/-- A span that stops at `end` exits no block that was open at its start. -/
theorem not_exits_of_lt_span (hend : stops.contains .kwEnd = true) {pre rest : List Token} :
    ∀ {n : Nesting}, pre.length ≤ spanLengthFrom stops hard n (pre ++ rest) →
      ¬ n.Exits pre rest := by
  induction pre with
  | nil => rintro n - ⟨inside, e, after, hpre, -⟩; simp at hpre
  | cons t pre ih =>
    intro n hlength
    rw [List.cons_append, spanLengthFrom_cons] at hlength
    rw [Nesting.exits_cons]
    by_cases hends : endsAt stops hard n t (pre ++ rest).head? = true
    · rw [if_pos hends] at hlength
      exact absurd hlength (Nat.not_succ_le_zero _)
    rw [if_neg hends] at hlength
    rintro (⟨hkeyword, hdepth⟩ | hexits)
    · refine hends ?_
      rw [endsAt, Token.kind_of_isKeyword hkeyword]
      simp_all [Nesting.stopsAt]
    · exact ih (Nat.le_of_succ_le_succ hlength) hexits

end Span

/-! ## 3. The blocks of a body -/

/-- The stops of the blocks inside bodies. -/
def innerStops : AssertionKind → List Keyword
  | .loopInvariant => loopInvariantStops
  | _ => checkStops

/-- Whether the innermost open block is a loop. -/
def Nesting.InLoop (n : Nesting) : Prop :=
  n.top? = some (.compound .fromLoop) ∨ n.top? = some (.compound .acrossLoop)

/-- `b.OpensAt before t after`: between `before` and `after`, the token `t` opens the block `b`, as a
check or as the invariant of the loop that is innermost there. -/
def AssertionBlock.OpensAt (b : AssertionBlock) (before : List Token) (t : Token)
    (after : List Token) : Prop :=
  b = innerBlock b.kind (innerStops b.kind) t after ∧
    (b.kind = .check ∧ t.isKeyword [.kwCheck] = true ∨
      b.kind = .loopInvariant ∧ t.isKeyword [.kwInvariant] = true ∧
        (({} : Nesting).along before (t :: after)).InLoop)

theorem opensAt_of_innerBlock? {before after : List Token} {t : Token} {b : AssertionBlock}
    (h : innerBlock? (({} : Nesting).along before (t :: after)) t after = some b) :
    b.OpensAt before t after := by
  unfold innerBlock? at h
  dsimp only at h
  split at h
  · rename_i hloop
    cases h
    simp only [Bool.and_eq_true, Bool.or_eq_true, beq_iff_eq] at hloop
    exact ⟨rfl, .inr ⟨rfl, hloop⟩⟩
  · split at h
    · rename_i hcheck
      cases h
      exact ⟨rfl, .inl ⟨rfl, hcheck⟩⟩
    · cases h

/-- Every block that the scan finds is opened by a token; `done` was scanned before. -/
theorem exists_opensAt {b : AssertionBlock} (done ts : List Token)
    (hb : b ∈ innerBlocksFrom (({} : Nesting).along done ts) ts) :
    ∃ before t after, done ++ ts = before ++ t :: after ∧ b.OpensAt before t after := by
  induction ts generalizing done with
  | nil => exact nomatch hb
  | cons t ts ih =>
    rcases List.mem_append.mp hb with hb | hb
    · exact ⟨done, t, ts, rfl, opensAt_of_innerBlock? (Option.mem_toList.mp hb)⟩
    · have hnext : (({} : Nesting).along done (t :: ts)).feed t ts.head? =
          ({} : Nesting).along (done ++ [t]) ts := by
        rw [Nesting.along_append]
        rfl
      rw [hnext] at hb
      obtain ⟨before, u, after, heq, hu⟩ := ih _ hb
      refine ⟨before, u, after, ?_, hu⟩
      rw [← heq, List.append_assoc]
      rfl

/-- **Where an assertion of an inner block stands in its body**: behind the token that opens the
block, within the span of the block, and outside all blocks that were opened on the way. -/
theorem exists_inner_entry {body : List Token} {b : AssertionBlock} {a : Assertion}
    (hb : b ∈ innerBlocks body) (ha : a ∈ b.assertions) : ∃ before opening pre t rest,
      body = before ++ opening :: (pre ++ t :: rest) ∧
      b.OpensAt before opening (pre ++ t :: rest) ∧
      pre.length < spanLength (innerStops b.kind) [] (pre ++ t :: rest) ∧
      ({} : Nesting).along pre (t :: rest) = {} ∧ a = entryAt (innerStops b.kind) [] t rest := by
  obtain ⟨before, opening, after, hbody, hopens⟩ := exists_opensAt [] body hb
  have hassertions : b.assertions =
      assertions (after.take (spanLength (innerStops b.kind) [] after)) := by
    rw [hopens.1]
    rfl
  rw [hassertions] at ha
  obtain ⟨pre, t, rest, rfl, hentry⟩ := exists_entry _ [] ha
  exact ⟨before, opening, pre, t, rest, hbody, hopens, hentry⟩

/-- Where tokens stand at different places, a place says what stands before and behind it. -/
theorem split_unique {xs ys rest rest' : List Token} {t u : Token}
    (hnodup : ((xs ++ t :: rest).map Token.location).Nodup)
    (heq : xs ++ t :: rest = ys ++ u :: rest') (hlocation : t.location = u.location) :
    xs = ys ∧ t = u ∧ rest = rest' := by
  induction xs generalizing ys with
  | nil =>
    cases ys with
    | nil =>
      obtain ⟨rfl, rfl⟩ := List.cons.inj heq
      exact ⟨rfl, rfl, rfl⟩
    | cons y ys =>
      obtain ⟨rfl, rfl⟩ := List.cons.inj heq
      simp [hlocation] at hnodup
  | cons x xs ih =>
    cases ys with
    | nil =>
      obtain ⟨rfl, rfl⟩ := List.cons.inj heq
      simp [hlocation] at hnodup
    | cons y ys =>
      obtain ⟨rfl, htail⟩ := List.cons.inj heq
      obtain ⟨rfl, rfl, rfl⟩ := ih (List.nodup_cons.mp hnodup).2 htail
      exact ⟨rfl, rfl, rfl⟩

/-! ## 4. Entries that two blocks share -/

/-- The block of a body runs over the `end` of its loop: in its span stands an `end` that closes no
block opened in the span. -/
def AssertionBlock.Overruns (b : AssertionBlock) (body : List Token) : Prop :=
  ∃ before t inside e after, body = before ++ t :: (inside ++ e :: after) ∧
    t.location = b.location ∧ e.isKeyword [.kwEnd] = true ∧
    (({} : Nesting).along inside (e :: after)).depth = 0 ∧
    inside.length < spanLength (innerStops b.kind) [] (inside ++ e :: after)

theorem Nesting.feed_check {n : Nesting} {t : Token} (ht : t.isKeyword [.kwCheck] = true)
    (next : Option Token) : (n.feed t next).frames = .compound .checkBlock :: n.frames := by
  rw [feed, Token.kind_of_isKeyword ht]
  rfl

theorem Nesting.feed_invariant {n : Nesting} {t : Token} (ht : t.isKeyword [.kwInvariant] = true)
    (next : Option Token) : n.feed t next = n := by
  rw [feed, Token.kind_of_isKeyword ht]
  rfl

theorem Nesting.Exits.append {n : Nesting} {xs ys rest : List Token} (h : n.Exits xs (ys ++ rest)) :
    n.Exits (xs ++ ys) rest := by
  obtain ⟨inside, e, after, rfl, hend, hdepth⟩ := h
  refine ⟨inside, e, after ++ ys, by simp, hend, ?_⟩
  simpa using hdepth

/-- Inside a check the frames are those counted from the check, above its own and those around it. -/
theorem Nesting.frames_along_check (n : Nesting) (before : List Token) {check : Token}
    {p rest : List Token} (hcheck : check.isKeyword [.kwCheck] = true)
    (hstays : ¬ ({} : Nesting).Exits p rest) :
    (n.along (before ++ check :: p) rest).frames = (({} : Nesting).along p rest).frames ++
      .compound .checkBlock :: (n.along before (check :: (p ++ rest))).frames := by
  have hopen := (n.along before (check :: (p ++ rest))).feed_check hcheck (p ++ rest).head?
  rw [along_append, along, List.cons_append]
  exact frames_along (by simp) hopen hstays

/-- Where a loop is innermost and the loop was opened inside a check, a scan that leaves all blocks of
the check exits the loop. -/
theorem Nesting.exits_of_inLoop {n : Nesting} {check invariant : Token}
    {before z q rest : List Token} (hcheck : check.isKeyword [.kwCheck] = true)
    (hinvariant : invariant.isKeyword [.kwInvariant] = true)
    (hloop : (n.along (before ++ check :: z) (invariant :: (q ++ rest))).InLoop)
    (hstays : ¬ ({} : Nesting).Exits (z ++ invariant :: q) rest)
    (halong : ({} : Nesting).along (z ++ invariant :: q) rest = {}) :
    ({} : Nesting).Exits q rest := by
  have hz : ¬ ({} : Nesting).Exits z (invariant :: (q ++ rest)) := fun h => hstays h.append
  unfold InLoop top? at hloop
  rw [n.frames_along_check before hcheck hz] at hloop
  rw [along_append, along, List.cons_append, feed_invariant hinvariant] at halong
  -- the loop is one of the blocks opened since the check, so its frame is above that of the check
  cases hframes : (({} : Nesting).along z (invariant :: (q ++ rest))).frames with
  | nil => simp [hframes] at hloop
  | cons frame frames =>
    by_contra hinside
    have hbase : (frame :: frames).head? ≠ some .routineHead := by
      intro hhead
      simp_all
    have hbehind := frames_along hbase hframes hinside
    rw [halong] at hbehind
    simp at hbehind

/-- **A check and a loop invariant share an entry only if the invariant overruns its loop.**  The one
that is opened later stands in the span of the other.  A check keeps its frame open up to the end of
its span, so no entry of an invariant around it begins there.  An invariant inside a check has its
loop open above the check; the entry they share begins outside all blocks of the check, so the loop
has been closed on the way, within the span of the invariant. -/
theorem overruns_of_shared {body : List Token} (hnodup : (body.map Token.location).Nodup)
    {b l : AssertionBlock} (hb : b ∈ innerBlocks body) (hl : l ∈ innerBlocks body)
    (hcheck : b.kind = .check) (hloop : l.kind = .loopInvariant) {x y : Assertion}
    (hx : x ∈ b.assertions) (hy : y ∈ l.assertions) (heq : x.location = y.location) :
    l.Overruns body := by
  obtain ⟨front, check, p, t, rest, hbody, hb, hp, halong, rfl⟩ := exists_inner_entry hb hx
  obtain ⟨front', invariant, q, u, rest', hbody', hl, hq, halong', rfl⟩ := exists_inner_entry hl hy
  rw [location_entryAt, location_entryAt] at heq
  have hcheckWord : check.isKeyword [.kwCheck] = true := by
    rcases hb.2 with h | h
    · exact h.2
    · simp [hcheck] at h
  obtain ⟨hinvariantWord, hinLoop⟩ : invariant.isKeyword [.kwInvariant] = true ∧
      (({} : Nesting).along front' (invariant :: (q ++ u :: rest'))).InLoop := by
    rcases hl.2 with h | h
    · simp [hloop] at h
    · exact h.2
  have hne : check ≠ invariant := by
    rintro rfl
    have hkind := Token.kind_of_isKeyword hcheckWord
    rw [Token.kind_of_isKeyword hinvariantWord] at hkind
    exact nomatch hkind
  have hstays : ¬ ({} : Nesting).Exits p (t :: rest) := by
    refine not_exits_of_lt_span (innerStops b.kind) [] ?_ (Nat.le_of_lt hp)
    rw [hcheck]
    rfl
  have hleft : body = (front ++ check :: p) ++ t :: rest := by simpa using hbody
  have hright : body = (front' ++ invariant :: q) ++ u :: rest' := by simpa using hbody'
  obtain ⟨hfront, rfl, rfl⟩ := split_unique (hleft ▸ hnodup) (hleft.symm.trans hright) heq
  rcases List.append_eq_append_iff.mp hfront with ⟨zs, rfl, hzs⟩ | ⟨zs, rfl, hzs⟩
  · rcases List.cons_eq_append_iff.mp hzs with ⟨rfl, hcons⟩ | ⟨z, rfl, rfl⟩
    · exact absurd (List.cons.inj hcons).1.symm hne
    obtain ⟨inside, e, after, rfl, hend, hdepth⟩ :=
      Nesting.exits_of_inLoop hcheckWord hinvariantWord hinLoop hstays halong
    refine ⟨front ++ check :: z, invariant, inside, e, after ++ t :: rest, ?_, ?_, hend,
      hdepth, ?_⟩
    · simpa using hright
    · rw [hl.1]
      rfl
    · simp only [List.append_assoc, List.length_append, List.cons_append] at hq ⊢
      omega
  · rcases List.cons_eq_append_iff.mp hzs with ⟨rfl, hcons⟩ | ⟨z, rfl, rfl⟩
    · exact absurd (List.cons.inj hcons).1 hne
    have hframes := ({} : Nesting).frames_along_check z hcheckWord hstays
    rw [halong'] at hframes
    simp at hframes

end ContractLint
