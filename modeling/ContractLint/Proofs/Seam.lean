/-
# Statements on both sides of a seam

Where a statement begins depends on what was read before: on the nesting, on the token before and
its line, and, for a `once`, on the token behind it.  Nothing of that crosses a SEAM, a place where
all blocks and brackets are closed and a statement begins anyway.

* `Nesting.feed_of_closed`: if a token leaves no block open, what follows it does not matter, for a
  `once` that is not part of a string opens one;
* `marked_append`: so the statements in front of the seam are marked as if nothing followed;
* `marked_of_seam`: and those behind it as if nothing stood before them;
* `statements_additive`: statements add up over a separator, and over a line end where none goes on.
-/
import ContractLint.Proofs.Balance
import ContractLint.Proofs.Search

namespace ContractLint

/-! ## 1. In front of the seam -/

namespace Nesting

theorem depth_openBody_ne_zero (n : Nesting) : n.openBody.depth ≠ 0 := by
  unfold openBody
  split <;> exact Nat.succ_ne_zero _

/-- **What follows a token that leaves no block open does not matter.** -/
theorem feed_of_closed {n : Nesting} {t : Token} (h : (n.feed t none).depth = 0)
    (next : Option Token) : n.feed t next = n.feed t none := by
  cases hnext : isManifest next with
  | false => exact n.feed_congr t hnext
  | true =>
    by_cases honce : t.isKeyword [.kwOnce] = true
    · -- in front of no string, the `once` opens a block
      have hbody : t.startsBody none = true := by
        rw [Token.startsBody, honce]
        exact Bool.or_true _
      rw [feed_startsBody hbody] at h
      exact absurd h n.depth_openBody_ne_zero
    · unfold feed
      cases hkind : t.kind with
      | keyword w =>
        have hw : w ≠ .kwOnce := by
          rintro rfl
          simp [Token.isKeyword, hkind] at honce
        cases w <;> first | rfl | exact absurd rfl hw
      | _ => rfl

end Nesting

/-- **Marks in front of closed blocks do not depend on what follows.** -/
theorem marked_append (ys : List Token) : ∀ {xs : List Token} {n : Nesting} {prev : Option Token},
    (∀ t ∈ xs, t.isEof = false) → (n.feedAll xs).depth = 0 →
    marked n prev (xs ++ ys) =
      marked n prev xs ++ marked (n.feedAll xs) (xs.getLast?.or prev) ys
  | [], _, _, _, _ => rfl
  | t :: xs, n, prev, heof, hclosed => by
    obtain ⟨ht, heof⟩ := List.forall_mem_cons.mp heof
    have hfeed : n.feed t (xs ++ ys).head? = n.feed t xs.head? := by
      cases xs with
      | nil => exact Nesting.feed_of_closed hclosed _
      | cons u us => rfl
    have hlast : (t :: xs).getLast?.or prev = xs.getLast?.or (some t) := by
      rw [List.getLast?_cons]
      cases xs.getLast? <;> rfl
    rw [List.cons_append, marked, marked, ht, if_neg Bool.false_ne_true, if_neg Bool.false_ne_true,
      hfeed, marked_append ys heof hclosed, hlast]
    rfl

/-! ## 2. Behind the seam -/

/-- Between `p` and `t`, a statement begins if nothing is open: one of them is a separator, or `t` is
on a later line and the expression does not go on there. -/
def Parts (p t : Token) : Prop :=
  isSeparator p = true ∨ isSeparator t = true ∨ p.line < t.line ∧ continues p t = false

/-- **Marks behind a seam are those of a span that begins there.** -/
theorem marked_of_seam {prev : Option Token} {ys : List Token}
    (h : ∀ p ∈ prev, ∀ t ∈ ys.head?, Parts p t) : marked {} prev ys = marked {} none ys := by
  cases ys with
  | nil => rfl
  | cons t ys =>
    have hbegins : beginsStatement {} prev t = beginsStatement {} none t := by
      cases prev with
      | none => rfl
      | some p =>
        unfold beginsStatement
        rcases h p rfl t rfl with hp | ht | ⟨hline, hgoes⟩
        · simp [Nesting.level, hp]
        · simp [ht]
        · simp [Nesting.level, hline, hgoes]
    rw [marked, marked, hbegins]

/-- Groups add up, up to the tokens in front of the first group of the second part. -/
theorem grouped_append {keep : Token → Bool} {ns : List (Bool × Token)}
    (hns : (grouped ns).1.filter keep = []) : ∀ ms : List (Bool × Token),
    (grouped (ms ++ ns)).1.filter keep = (grouped ms).1.filter keep ∧
      (grouped (ms ++ ns)).2.map (List.filter keep) =
        (grouped ms).2.map (List.filter keep) ++ (grouped ns).2.map (List.filter keep)
  | [] => ⟨hns, rfl⟩
  | (begins, t) :: ms => by
    obtain ⟨hbefore, hgroups⟩ := grouped_append hns ms
    cases begins with
    | false =>
      refine ⟨?_, hgroups⟩
      simp only [List.cons_append, grouped, Bool.false_eq_true, if_false, List.filter_cons, hbefore]
    | true =>
      refine ⟨rfl, ?_⟩
      simp only [List.cons_append, grouped, if_true, List.map_cons, List.filter_cons, hbefore,
        hgroups]

/-- **Statements add up over a seam.** -/
theorem statements_append {xs ys : List Token} (hxs : ∀ t ∈ xs, t.isEof = false)
    (hys : ∀ t ∈ ys, t.isEof = false) (hclosed : ({} : Nesting).feedAll xs = {})
    (hseam : ∀ p ∈ xs.getLast?, ∀ t ∈ ys.head?, Parts p t) :
    statements (xs ++ ys) = statements xs ++ statements ys := by
  have hmarks : marked {} none (xs ++ ys) = marked {} none xs ++ marked {} none ys := by
    rw [marked_append ys hxs (by rw [hclosed]; rfl), hclosed, Option.or_none,
      marked_of_seam hseam]
  -- in front of the first statement there are only separators, and they belong to none
  have hfront : (grouped (marked {} none ys)).1.filter (fun t => !isSeparator t && !t.isEof) = [] := by
    refine List.filter_eq_nil_iff.mpr fun t ht => ?_
    simp [isSeparator_of_mem_grouped hys (fun p hp => by cases hp) t ht]
  rw [statements, hmarks]
  exact (grouped_append hfront _).2

/-- A separator is no statement, and nothing is open behind it. -/
theorem statements_separator {t : Token} (h : isSeparator t = true) : statements [t] = [] := by
  have hbegins : beginsStatement {} none t = false := by simp [beginsStatement, h]
  rw [statements, marked]
  split
  · rfl
  · rw [hbegins]
    rfl

/-- **Statement counting is additive.**  Let `xs` close all blocks and brackets that it opens.  Then
with a separator between them, `xs` and `ys` have the statements of the one and then those of the
other; and so they have with nothing between them, if `ys` begins on a later line than the one on
which `xs` ends, and the expression does not go on there. -/
theorem statements_additive {xs ys : List Token} (hxs : ∀ t ∈ xs, t.isEof = false)
    (hys : ∀ t ∈ ys, t.isEof = false) (hclosed : ({} : Nesting).feedAll xs = {}) :
    (∀ sep, isSeparator sep = true →
      statements (xs ++ sep :: ys) = statements xs ++ statements ys ∧
        statementCount (xs ++ sep :: ys) = statementCount xs + statementCount ys) ∧
    ((∀ a ∈ xs.getLast?, ∀ b ∈ ys.head?, a.line < b.line ∧ continues a b = false) →
      statements (xs ++ ys) = statements xs ++ statements ys ∧
        statementCount (xs ++ ys) = statementCount xs + statementCount ys) := by
  have hcount : ∀ {zs : List Token}, statements zs = statements xs ++ statements ys →
      statementCount zs = statementCount xs + statementCount ys := fun h => by
    rw [statementCount, h, List.length_append]
    rfl
  refine ⟨fun sep hsep => ?_, fun hlines => ?_⟩
  · have hsepEof : sep.isEof = false := by simp [Token.isEof, kind_of_isSeparator hsep]
    have hbehind : statements (sep :: ys) = statements ys := by
      have hsplit : statements ([sep] ++ ys) = statements [sep] ++ statements ys :=
        statements_append (by simpa using hsepEof) hys (Nesting.feed_separator hsep _ _)
          (by simp [Parts, hsep])
      rwa [statements_separator hsep] at hsplit
    have hsplit : statements (xs ++ sep :: ys) = statements xs ++ statements ys := by
      rw [statements_append hxs (List.forall_mem_cons.mpr ⟨hsepEof, hys⟩) hclosed, hbehind]
      rintro p - t ht
      cases ht
      exact .inr (.inl hsep)
    exact ⟨hsplit, hcount hsplit⟩
  · have hsplit := statements_append hxs hys hclosed fun a ha b hb => .inr (.inr (hlines a ha b hb))
    exact ⟨hsplit, hcount hsplit⟩

/-- Tokens of one line, without texts. -/
def sampleLine (line : Int) (kinds : List Kind) : List Token :=
  kinds.map fun kind => ⟨kind, "", ⟨line, 1, 0⟩, [], none⟩

/-- `if a then b ; f ( x ) end`, one statement. -/
def sampleConditional : List Token :=
  sampleLine 1 [.keyword .kwIf, .identifier, .keyword .kwThen, .identifier, .operator .semicolon,
    .identifier, .operator .openParen, .identifier, .operator .closeParen, .keyword .kwEnd]

/-- `g ; once "s"`, two statements on a later line. -/
def sampleSequence : List Token :=
  sampleLine 2 [.identifier, .operator .semicolon, .keyword .kwOnce, .string]

/-- Three statements, with a separator between the two lines and without one. -/
theorem statements_additive_sample :
    let sep : Token := ⟨.operator .semicolon, ";", ⟨1, 30, 29⟩, [], none⟩
    ({} : Nesting).feedAll sampleConditional = {} ∧
      statementCount (sampleConditional ++ sep :: sampleSequence) = 3 ∧
      statementCount (sampleConditional ++ sampleSequence) = 3 := by
  intro sep
  have hclosed : ({} : Nesting).feedAll sampleConditional = {} := by decide
  have hcounts : statementCount sampleConditional + statementCount sampleSequence = 3 := by decide
  have heof : ∀ t ∈ sampleConditional, t.isEof = false := by decide
  have heof' : ∀ t ∈ sampleSequence, t.isEof = false := by decide
  obtain ⟨hseparated, hlines⟩ := statements_additive heof heof' hclosed
  refine ⟨hclosed, ?_, ?_⟩
  · rw [(hseparated sep rfl).2, hcounts]
  · rw [(hlines (by decide)).2, hcounts]

end ContractLint
