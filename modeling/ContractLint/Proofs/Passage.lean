/-
# Passages

A keyword that starts a feature clause ends whatever stands before it: spans stop at it at any
depth, so do notes of features, conversion clauses and names.  Five LOOPS do not.  Clients in
braces, the keys of a once body, square brackets, a note of the class and the adaptation of a parent
are passed over up to their own end, and what stands in them is not looked at.

A `Run` is such a loop with the place where the parser started it.  `inPassage runs before i` says
that one of these runs is not over at the item `i`; it looks at items only.  `Keeps runs before xs
ls` says that reading `xs` behind `before` leaves the clauses at `ls`: every feature keyword is kept
in `ls` or stands in a passage.  The items of a run keep nothing (section 3).
-/
import ContractLint.Grammar.Clause
import ContractLint.Proofs.Follow
import Mathlib.Data.List.Infix
import Mathlib.Data.List.TakeWhile

namespace ContractLint

/-! ## 1. Passages -/

/-- Whether an item is the keyword of a feature clause. -/
def Item.opensClause (i : Item) : Bool :=
  i.token.isKeyword [.kwFeature]

/-- A loop of the parser that passes over items up to its own end. -/
inductive SkipLoop where
  | clients
  | onceKeys
  | brackets
  | classNote
  | adaptation
deriving DecidableEq, Repr, Inhabited

/-- A loop that was run, and the number of items in front of the one it started at. -/
structure Run where
  loop : SkipLoop
  start : Nat
deriving DecidableEq, Repr, Inhabited

/-- The symbol `opening`, and no `close` behind it. -/
def isUnclosed (opening close : Symbol) : List Item → Bool
  | paren :: inside =>
    paren.token.isSymbol [opening] && inside.all fun j => !j.token.isSymbol [close]
  | [] => false

/-- The number of open brackets after one more item, as long as the first one is not closed. -/
def bracketStep (depth : Nat) (i : Item) : Option Nat :=
  if i.token.isSymbol [.openBracket] then some (depth + 1)
  else if i.token.isSymbol [.closeBracket] then if depth ≤ 1 then none else some (depth - 1)
  else some depth

/-- A bracket that is not closed. -/
def isBracketed : List Item → Bool
  | bracket :: inside =>
    bracket.token.isSymbol [.openBracket] && (inside.foldlM bracketStep 1).isSome
  | [] => false

/-- Whether a note of the class ends in front of the item. -/
def Item.endsNote (i : Item) : Bool :=
  i.startsLine && i.token.isKeyword (classMarks ++ [.kwClass, .kwEnd] ++ clauseKeywords)

/-- A keyword of `ws` that is followed by nothing that satisfies `ends`. -/
def isOpen (ws : List Keyword) (ends : Item → Bool) : List Item → Bool
  | keyword :: inside => keyword.token.isKeyword ws && inside.all fun j => !ends j
  | [] => false

/-- Whether the loop, started at the first of the items `s`, passes over them and then over `i`. -/
def SkipLoop.holds (loop : SkipLoop) (s : List Item) (i : Item) : Bool :=
  match loop with
  | clients => isUnclosed .openBrace .closeBrace s
  | onceKeys => isUnclosed .openParen .closeParen s
  | brackets => isBracketed s
  | classNote => !i.startsLine && isOpen [.kwNote] Item.endsNote s
  | adaptation => !i.startsLine && isOpen adaptationKeywords (·.token.isKeyword [.kwEnd]) s

/-- Whether `i`, with `before` in front of it, stands in a passage of one of the runs. -/
def inPassage (runs : List Run) (before : List Item) (i : Item) : Bool :=
  runs.any fun r => r.loop.holds (before.drop r.start) i

section

variable {runs : List Run} {before s : List Item} {i : Item}

theorem inPassage_append {loop : SkipLoop} (hrun : ⟨loop, before.length⟩ ∈ runs)
    (h : loop.holds s i = true) : inPassage runs (before ++ s) i = true :=
  List.any_eq_true.mpr ⟨_, hrun, by rwa [List.drop_left]⟩

theorem inPassage_mono {runs' : List Run} (hruns : runs ⊆ runs')
    (h : inPassage runs before i = true) : inPassage runs' before i = true := by
  obtain ⟨r, hr, hholds⟩ := List.any_eq_true.mp h
  exact List.any_eq_true.mpr ⟨r, hruns hr, hholds⟩

/-- Whether a run may start at an item. -/
def Item.startsRun (i : Item) : Bool :=
  i.token.isSymbol [.openBrace] || i.token.isSymbol [.openParen] ||
    i.token.isSymbol [.openBracket] || i.token.isKeyword [.kwNote] ||
    i.token.isKeyword adaptationKeywords

/-- What has no such item in front of it stands in no passage. -/
theorem inPassage_eq_false (h : ∀ j ∈ before, j.startsRun = false) :
    inPassage runs before i = false := by
  refine List.any_eq_false.mpr fun r _ => ?_
  cases hs : before.drop r.start with
  | nil => cases r.loop <;> simp [SkipLoop.holds, isUnclosed, isBracketed, isOpen]
  | cons j inside =>
    have hj := h j (List.mem_of_mem_drop (hs ▸ List.mem_cons_self))
    simp only [Item.startsRun, Bool.or_eq_false_iff] at hj
    cases r.loop <;> simp [SkipLoop.holds, isUnclosed, isBracketed, isOpen, hj]

end

/-! ## 2. What reading keeps -/

/-- Reading `xs` behind `before` keeps the feature keywords at `ls`; the others stand in passages. -/
inductive Keeps (runs : List Run) : List Item → List Item → List Location → Prop
  | nil (before : List Item) : Keeps runs before [] []
  | keep {before : List Item} {i : Item} {is : List Item} {ls : List Location} :
      i.opensClause = true → Keeps runs (before ++ [i]) is ls →
      Keeps runs before (i :: is) (i.token.location :: ls)
  | pass {before : List Item} {i : Item} {is : List Item} {ls : List Location} :
      (i.opensClause = true → inPassage runs before i = true) → Keeps runs (before ++ [i]) is ls →
      Keeps runs before (i :: is) ls

namespace Keeps

variable {runs : List Run} {before xs ys : List Item} {ls ms : List Location}

theorem append (h : Keeps runs before xs ls) (h' : Keeps runs (before ++ xs) ys ms) :
    Keeps runs before (xs ++ ys) (ls ++ ms) := by
  induction h with
  | nil before => simpa using h'
  | keep hi _ ih => exact .keep hi (ih (by simpa using h'))
  | pass hi _ ih => exact .pass hi (ih (by simpa using h'))

/-- More runs keep what is kept. -/
theorem mono {runs' : List Run} (hruns : runs ⊆ runs') (h : Keeps runs before xs ls) :
    Keeps runs' before xs ls := by
  induction h with
  | nil before => exact .nil before
  | keep hi _ ih => exact .keep hi ih
  | pass hi _ ih => exact .pass (fun hopens => inPassage_mono hruns (hi hopens)) ih

/-- Nothing is kept of items that all stand in passages or start no clause. -/
theorem of_inPassage (h : ∀ front i back, xs = front ++ i :: back → i.opensClause = true →
    inPassage runs (before ++ front) i = true) : Keeps runs before xs [] := by
  induction xs generalizing before with
  | nil => exact .nil before
  | cons x xs ih =>
    refine .pass (fun hx => ?_) (ih fun front i back hxs hi => ?_)
    · simpa using h [] x xs rfl hx
    · simpa using h (x :: front) i back (by rw [hxs]; rfl) hi

theorem of_forall (h : ∀ i ∈ xs, i.opensClause = false) : Keeps runs before xs [] := by
  refine of_inPassage fun front i back hxs hi => ?_
  have hplain := h i (by rw [hxs]; exact List.mem_append_right _ List.mem_cons_self)
  rw [hi] at hplain
  cases hplain

/-- What is kept are feature keywords, in order and each once. -/
theorem sublist (h : Keeps runs before xs ls) :
    ls.Sublist ((xs.filter Item.opensClause).map (·.token.location)) := by
  induction h with
  | nil before => exact .slnil
  | keep hi _ ih =>
    rw [List.filter_cons_of_pos hi]
    exact ih.cons_cons _
  | @pass before i is ls hi _ ih =>
    rw [List.filter_cons]
    split
    · exact ih.cons _
    · exact ih

/-- **A feature keyword outside all passages is kept.** -/
theorem mem (h : Keeps runs before xs ls) {front back : List Item} {i : Item}
    (hxs : xs = front ++ i :: back) (hi : i.opensClause = true)
    (hout : inPassage runs (before ++ front) i = false) : i.token.location ∈ ls := by
  induction h generalizing front with
  | nil => simp at hxs
  | @keep before x xs ls hx _ ih =>
    cases front with
    | nil =>
      cases hxs
      exact List.mem_cons_self
    | cons y front =>
      cases hxs
      exact List.mem_cons_of_mem _ (ih rfl (by simpa using hout))
  | @pass before x xs ls hx _ ih =>
    cases front with
    | nil =>
      cases hxs
      have hin := hx hi
      rw [List.append_nil, hin] at hout
      cases hout
    | cons y front =>
      cases hxs
      exact ih rfl (by simpa using hout)

end Keeps

/-! ## 3. Passages keep nothing -/

/-- The items that satisfy `p` are the first ones. -/
theorem take_length_takeWhile {α : Type} (p : α → Bool) (xs : List α) :
    xs.take (xs.takeWhile p).length = xs.takeWhile p :=
  (List.prefix_iff_eq_take.mp (List.takeWhile_prefix p)).symm

section

variable {runs : List Run} {before : List Item}

/-- Inside brackets nothing is kept: as long as they are open, items stand in a passage. -/
theorem keeps_inside_brackets (hrun : ⟨.brackets, before.length⟩ ∈ runs) {bracket : Item}
    (hbracket : bracket.token.isSymbol [.openBracket] = true) :
    ∀ (is inside : List Item) (depth : Nat), inside.foldlM bracketStep 1 = some depth →
      Keeps runs (before ++ bracket :: inside) (is.take (bracketLengthFrom depth is)) []
  | [], _, _, _ => by
    rw [List.take_nil]
    exact .nil _
  | i :: is, inside, depth, hdepth => by
    have hstep : (inside ++ [i]).foldlM bracketStep 1 = bracketStep depth i := by
      rw [List.foldlM_append, hdepth]
      simp
    have hin : inPassage runs (before ++ bracket :: inside) i = true :=
      inPassage_append hrun (by simp [SkipLoop.holds, isBracketed, hbracket, hdepth])
    have hrest : ∀ depth', bracketStep depth i = some depth' →
        Keeps runs (before ++ bracket :: inside) (i :: is.take (bracketLengthFrom depth' is)) [] := by
      intro depth' hsome
      have hbehind := keeps_inside_brackets hrun hbracket is (inside ++ [i]) depth'
        (hstep.trans hsome)
      refine .pass (fun _ => hin) ?_
      rwa [List.append_assoc, List.cons_append]
    rw [bracketLengthFrom]
    split
    · exact hrest (depth + 1) (by simp [bracketStep, *])
    split
    · split
      · exact .pass (fun _ => hin) (.nil _)
      · exact hrest (depth - 1) (by simp [bracketStep, *])
    · exact hrest depth (by simp [bracketStep, *])

theorem keeps_brackets (hrun : ⟨.brackets, before.length⟩ ∈ runs) (c : Cursor) :
    Keeps runs before (c.items.take c.bracketLength) [] := by
  obtain ⟨items, eof⟩ := c
  unfold Cursor.bracketLength
  split
  · rename_i hbracket
    cases items with
    | nil => cases hbracket
    | cons bracket is =>
      have hbracket : bracket.token.isSymbol [.openBracket] = true := hbracket
      rw [bracketLengthFrom, if_pos hbracket, List.take_succ_cons]
      refine .pass (fun hopens => ?_) (keeps_inside_brackets hrun hbracket is [] 1 rfl)
      exact absurd ((Token.isKeyword_of_isSymbol hbracket _).symm.trans hopens) (by decide)
  · exact .nil _

/-- What symbols enclose keeps nothing. -/
theorem keeps_enclosed {loop : SkipLoop} (hrun : ⟨loop, before.length⟩ ∈ runs)
    {opening close : Symbol}
    (hholds : ∀ s i, isUnclosed opening close s = true → loop.holds s i = true) {c : Cursor}
    (hopening : c.atSymbol [opening] = true) :
    Keeps runs before (c.items.take (c.enclosed close).2) [] := by
  obtain ⟨items, eof⟩ := c
  cases items with
  | nil => cases hopening
  | cons paren is =>
    have hparen : paren.token.isSymbol [opening] = true := hopening
    set inside := is.takeWhile fun i => !i.token.isSymbol [close] with hinside
    have hinner : Keeps runs (before ++ [paren]) inside [] := by
      refine .of_inPassage fun front i back hsplit _ => ?_
      rw [List.append_assoc]
      refine inPassage_append hrun (hholds _ i ?_)
      simp only [isUnclosed, List.singleton_append, hparen, Bool.true_and, List.all_eq_true]
      intro j hj
      have hmem : j ∈ inside := by
        rw [hsplit]
        exact List.mem_append_left _ hj
      exact List.mem_takeWhile_imp (p := fun i : Item => !i.token.isSymbol [close]) hmem
    have hlast : Keeps runs (before ++ [paren] ++ inside)
        ((is.drop inside.length).take (Cursor.optSymbol ⟨is.drop inside.length, eof⟩ [close])) [] := by
      refine .of_forall fun j hj => ?_
      cases hrest : is.drop inside.length with
      | nil => simp [hrest] at hj
      | cons k ks =>
        rw [hrest, Cursor.optSymbol, Cursor.atSymbol_cons] at hj
        split at hj
        · rename_i hclose
          rw [List.mem_singleton.mp hj]
          exact Token.isKeyword_of_isSymbol hclose _
        · cases hj
    have hsplit : (paren :: is).take (Cursor.enclosed ⟨paren :: is, eof⟩ close).2 =
        paren :: (inside ++ (is.drop inside.length).take
          (Cursor.optSymbol ⟨is.drop inside.length, eof⟩ [close])) := by
      change (paren :: is).take (1 + inside.length + _) = _
      rw [Nat.add_assoc, Nat.add_comm, List.take_succ_cons, List.take_add,
        take_length_takeWhile]
      rfl
    change Keeps runs before ((paren :: is).take _) []
    rw [hsplit]
    refine .pass (fun hopens => ?_) (hinner.append hlast)
    exact absurd ((Token.isKeyword_of_isSymbol hparen _).symm.trans hopens) (by decide)

/-- A keyword and what follows it up to an end keep nothing, if the feature keywords among them stand
in a passage. -/
theorem keeps_run {loop : SkipLoop} (hrun : ⟨loop, before.length⟩ ∈ runs) {ws : List Keyword}
    {ends : Item → Bool} {keyword : Item} {is : List Item}
    (hkeyword : keyword.token.isKeyword ws = true) (hws : ∀ w ∈ ws, w ∉ [Keyword.kwFeature])
    (hholds : ∀ s i, i ∈ is.takeWhile (fun j => !ends j) → i.opensClause = true →
      isOpen ws ends s = true → loop.holds s i = true) :
    Keeps runs before (keyword :: is.takeWhile fun j => !ends j) [] := by
  refine .pass (fun hopens => ?_) (.of_inPassage fun front i back hsplit hi => ?_)
  · exact absurd ((Token.isKeyword_of_disjoint hkeyword hws).symm.trans hopens) (by decide)
  · have hmem : ∀ j ∈ front ++ i :: back, j ∈ is.takeWhile fun j => !ends j :=
      fun j hj => hsplit ▸ hj
    rw [List.append_assoc]
    refine inPassage_append hrun (hholds _ i ?_ hi ?_)
    · exact hmem i (List.mem_append_right _ List.mem_cons_self)
    · simp only [isOpen, List.singleton_append, hkeyword, Bool.true_and, List.all_eq_true]
      intro j hj
      exact List.mem_takeWhile_imp (p := fun j => !ends j) (hmem j (List.mem_append_left _ hj))

/-- A note of the class keeps nothing: a feature keyword that starts a line would have ended it. -/
theorem keeps_classNote (hrun : ⟨.classNote, before.length⟩ ∈ runs) {c : Cursor}
    (h : c.atKeyword [.kwNote] = true) :
    Keeps runs before (c.items.take (classNoteLength c)) [] := by
  obtain ⟨items, eof⟩ := c
  cases items with
  | nil => cases h
  | cons keyword is =>
    have hkeyword : keyword.token.isKeyword [.kwNote] = true := h
    have htaken : Keeps runs before (keyword :: is.takeWhile fun j => !j.endsNote) [] := by
      refine keeps_run hrun hkeyword (by decide) fun s i hi hopens hopen => ?_
      have hends := List.mem_takeWhile_imp hi
      have hlimit : i.token.isKeyword (classMarks ++ [.kwClass, .kwEnd] ++ clauseKeywords) = true :=
        Token.isKeyword_mono hopens (by decide)
      have hline : i.startsLine = false := by
        rw [Item.endsNote, hlimit] at hends
        simpa using hends
      simp [SkipLoop.holds, hline, hopen]
    change Keeps runs before ((keyword :: is).take
      (1 + (is.takeWhile fun j => !j.endsNote).length)) []
    rw [Nat.add_comm, List.take_succ_cons, take_length_takeWhile]
    exact htaken

/-- The adaptation of a parent keeps nothing, if no clause starts a line in it. -/
theorem keeps_adaptation (hrun : ⟨.adaptation, before.length⟩ ∈ runs) {c : Cursor}
    (h : c.atKeyword adaptationKeywords = true)
    (hnone : ∀ i ∈ c.items.takeWhile fun i => !i.token.isKeyword [.kwEnd],
      (i.startsLine && i.token.isKeyword clauseKeywords) = false) :
    Keeps runs before (c.items.takeWhile fun i => !i.token.isKeyword [.kwEnd]) [] := by
  obtain ⟨items, eof⟩ := c
  cases items with
  | nil => cases h
  | cons keyword is =>
    have hkeyword : keyword.token.isKeyword adaptationKeywords = true := h
    have hfirst : keyword.token.isKeyword [.kwEnd] = false :=
      Token.isKeyword_of_disjoint hkeyword (by decide)
    dsimp only at hnone ⊢
    rw [List.takeWhile_cons_of_pos (by simp [hfirst])] at hnone ⊢
    refine keeps_run hrun hkeyword (by decide) fun s i hi hopens hopen => ?_
    have hclause : i.token.isKeyword clauseKeywords = true :=
      Token.isKeyword_mono hopens (by decide)
    have hline : i.startsLine = false := by
      have hi := hnone i (List.mem_cons_of_mem _ hi)
      simpa [hclause] using hi
    simp [SkipLoop.holds, hline, hopen]

end

end ContractLint
