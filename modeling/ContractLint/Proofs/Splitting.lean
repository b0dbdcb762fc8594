/-
# Splitting loses nothing

A span is cut into statements in two steps: its tokens are marked where statements begin, and every
mark starts a group from which separators are dropped.  Both steps could lose tokens.  What stands
in front of the first mark is in no group, and a group could be left empty.  Neither happens: in
front of the first mark stand only separators (`dropped_of_mem_grouped`), and a mark is at a token
that is kept.

* `level_of_marked`: a statement begins where nothing is open, whatever was closed too often before;
* `head?_statements`: the statements begin at the marks, one at each;
* `forall₂_spells`: an assertion is its statement again, with the label and the colon in front;
* `splitting_keeps_tokens`: so the statements of a span are its tokens without the separators, and
  so are its assertions.
-/
import ContractLint.Proofs.Seam

namespace ContractLint

open List (Forall₂)

/-! ## 1. Where statements begin -/

theorem mem_statementStarts {ts : List Token} {k : Nat} :
    k ∈ statementStarts ts ↔ ∃ t, (marked {} none ts)[k]? = some (true, t) := by
  constructor
  · intro hk
    obtain ⟨⟨⟨begins, t⟩, i⟩, hmark, hsome⟩ := List.mem_filterMap.mp hk
    cases begins with
    | false => cases hsome
    | true =>
      cases hsome
      exact ⟨t, List.mem_zipIdx_iff_getElem?.mp hmark⟩
  · rintro ⟨t, hmark⟩
    exact List.mem_filterMap.mpr ⟨((true, t), k), List.mem_zipIdx_iff_getElem?.mpr hmark, rfl⟩

/-- **A statement begins at a token that is kept, and where nothing is open.**  Only the first token
of a span has none before it, and then nothing is open yet. -/
theorem level_of_marked : ∀ {ts : List Token} {n : Nesting} {prev : Option Token} {k : Nat}
    {t : Token}, (prev = none → n = {}) → (marked n prev ts)[k]? = some (true, t) →
    isSeparator t = false ∧ t.isEof = false ∧ (n.along (ts.take k) (ts.drop k)).level = 0
  | [], _, _, _, _, _, hmark => by cases hmark
  | u :: ts, n, prev, k, t, hstart, hmark => by
    rw [marked] at hmark
    cases heof : u.isEof with
    | true =>
      -- from the end of the text on nothing is marked
      have hmem := List.mem_of_getElem? (by rwa [heof, if_pos rfl] at hmark)
      simp at hmem
    | false =>
      rw [heof, if_neg Bool.false_ne_true] at hmark
      cases k with
      | zero =>
        obtain ⟨hbegins, rfl⟩ := Prod.mk.inj (Option.some.inj hmark)
        obtain ⟨hseparator, hfirst⟩ := level_of_beginsStatement hbegins
        refine ⟨hseparator, heof, ?_⟩
        rcases hfirst with hfirst | hlevel
        · rw [hstart hfirst]
          rfl
        · exact hlevel
      | succ k =>
        have hbehind : some u = none → n.feed u ts.head? = {} := fun h => by cases h
        have ih := level_of_marked hbehind hmark
        rwa [List.take_succ_cons, List.drop_succ_cons, Nesting.along, List.take_append_drop]

/-! ## 2. The statements -/

/-- The groups begin at the marked tokens, one at each. -/
theorem head?_grouped {keep : Token → Bool} : ∀ {ms : List (Bool × Token)},
    (∀ m ∈ ms, m.1 = true → keep m.2 = true) →
    ((grouped ms).2.map (List.filter keep)).map List.head? =
      (ms.filter Prod.fst).map (some ·.2)
  | [], _ => rfl
  | (begins, t) :: ms, hkeep => by
    obtain ⟨ht, hkeep⟩ := List.forall_mem_cons.mp hkeep
    have ih := head?_grouped hkeep
    cases begins with
    | false => exact ih
    | true =>
      rw [grouped, List.filter_cons_of_pos rfl, List.map_cons, ← ih]
      simp [ht rfl]

/-- The indices of the marks, counted from behind `before`, lead to the marked tokens. -/
theorem map_getElem?_marks : ∀ (ms : List (Bool × Token)) (before : List Token),
    ((ms.zipIdx before.length).filterMap fun (m, i) => if m.1 then some i else none).map
        ((before ++ ms.map Prod.snd)[·]?) = (ms.filter Prod.fst).map (some ·.2)
  | [], _ => rfl
  | (begins, t) :: ms, before => by
    have ih := map_getElem?_marks ms (before ++ [t])
    rw [List.length_append, List.length_singleton, List.append_assoc] at ih
    rw [List.zipIdx_cons, List.map_cons]
    cases begins with
    | false => exact ih
    | true =>
      have hhead : (before ++ t :: ms.map Prod.snd)[before.length]? = some t := by simp
      exact congrArg₂ List.cons hhead ih

/-- **The statements begin where the starts are**, one at each. -/
theorem head?_statements (ts : List Token) :
    (statements ts).map List.head? = (statementStarts ts).map (ts[·]?) := by
  have hkeep : ∀ m ∈ marked {} none ts, m.1 = true → (!isSeparator m.2 && !m.2.isEof) = true := by
    rintro ⟨begins, t⟩ hmem rfl
    obtain ⟨k, hk⟩ := List.mem_iff_getElem?.mp hmem
    obtain ⟨hseparator, heof, -⟩ := level_of_marked (fun _ => rfl) hk
    rw [hseparator, heof]
    rfl
  have hmarks := map_getElem?_marks (marked {} none ts) []
  rw [map_snd_marked] at hmarks
  exact (head?_grouped hkeep).trans hmarks.symm

theorem ne_nil_of_mem_statements {ts s : List Token} (hs : s ∈ statements ts) : s ≠ [] := by
  rintro rfl
  have hhead := List.mem_map_of_mem (f := List.head?) hs
  rw [head?_statements] at hhead
  obtain ⟨k, hk, hnone⟩ := List.mem_map.mp hhead
  obtain ⟨t, hmark⟩ := mem_statementStarts.mp hk
  have hget := congrArg (Option.map Prod.snd) hmark
  rw [← List.getElem?_map, map_snd_marked] at hget
  rw [hget] at hnone
  cases hnone

/-- **The statements are the tokens, without the separators and the end of the text.** -/
theorem flatten_statements_eq {ts : List Token} (hend : ∀ t ∈ ts.dropLast, t.isEof = false) :
    (statements ts).flatten = ts.filter fun t => !isSeparator t && !t.isEof := by
  have hparts := append_flatten_grouped (marked {} none ts)
  rw [map_snd_marked] at hparts
  have hbefore :
      (grouped (marked {} none ts)).1.filter (fun t => !isSeparator t && !t.isEof) = [] := by
    refine List.filter_eq_nil_iff.mpr fun t ht => ?_
    rcases dropped_of_mem_grouped hend (fun p hp => by cases hp) t ht with h | h <;> simp [h]
  rw [flatten_statements, ← List.nil_append (List.filter _ _), ← hbefore, ← List.filter_append,
    hparts]

/-! ## 3. The assertions -/

/-- `a.Spells ts`: the tokens `ts` are the assertion `a`, which is located at the first of them.  An
identifier and a colon in front are its label. -/
inductive Assertion.Spells : Assertion → List Token → Prop where
  | labeled {t colon : Token} {expression : List Token} (ht : t.isIdentifier = true)
      (hcolon : colon.isSymbol [.colon] = true) :
      Spells ⟨some t.text, expression, t.location⟩ (t :: colon :: expression)
  | unlabeled {t : Token} {ts : List Token}
      (h : t.isIdentifier = true → ∀ u ∈ ts.head?, u.isSymbol [.colon] = false) :
      Spells ⟨none, t :: ts, t.location⟩ (t :: ts)

theorem Assertion.spells_ofTokens (t : Token) (ts : List Token) :
    (Assertion.ofTokens t ts).Spells (t :: ts) := by
  cases ts with
  | nil => exact .unlabeled fun _ u hu => by cases hu
  | cons colon rest =>
    unfold ofTokens
    dsimp only
    split
    · rename_i h
      obtain ⟨ht, hcolon⟩ := Bool.and_eq_true_iff.mp h
      exact .labeled ht hcolon
    · rename_i h
      refine .unlabeled fun ht u hu => ?_
      cases hu
      simpa [ht] using h

/-- **Every statement is one assertion**, and spelled by it. -/
theorem forall₂_spells (ts : List Token) :
    Forall₂ Assertion.Spells (assertions ts) (statements ts) := by
  have hne : ∀ s ∈ statements ts, s ≠ [] := fun s => ne_nil_of_mem_statements
  unfold assertions
  generalize statements ts = ss at hne
  induction ss with
  | nil => exact .nil
  | cons s ss ih =>
    obtain ⟨hs, hss⟩ := List.forall_mem_cons.mp hne
    cases s with
    | nil => exact absurd rfl hs
    | cons t us => exact .cons (Assertion.spells_ofTokens t us) (ih hss)

/-! ## 4. Splitting -/

/-- A span ends in front of the end of the text. -/
theorem isEof_of_mem_span (stops hard : List Keyword) : ∀ (n : Nesting) (ts : List Token),
    ∀ t ∈ ts.take (spanLengthFrom stops hard n ts), t.isEof = false
  | _, [], t, ht => by simp at ht
  | n, u :: ts, t, ht => by
    rw [spanLengthFrom_cons] at ht
    split at ht
    · cases ht
    · rename_i hends
      rcases List.mem_cons.mp ht with rfl | ht
      · exact isEof_of_not_endsAt stops hard hends
      · exact isEof_of_mem_span stops hard _ ts t ht

/-- **Splitting loses nothing.**  If at most the last of the tokens is the end of the text, the
statements are the tokens without separators and that end, in order; none is empty; they begin at
the starts, one at each, and nothing is open there.  And the assertions of a span, each with its
label and colon in front and located at its first token, are the span without its separators. -/
theorem splitting_keeps_tokens :
    (∀ ts : List Token, (∀ t ∈ ts.dropLast, t.isEof = false) →
      (statements ts).flatten = ts.filter (fun t => !isSeparator t && !t.isEof) ∧
        (∀ s ∈ statements ts, s ≠ []) ∧
        (statements ts).map List.head? = (statementStarts ts).map (ts[·]?) ∧
        (∀ k ∈ statementStarts ts, (Nesting.metAt ts k).level = 0) ∧
        Forall₂ Assertion.Spells (assertions ts) (statements ts)) ∧
    ∀ (stops hard : List Keyword) (ts : List Token),
      let span := ts.take (spanLength stops hard ts)
      ∃ entries, Forall₂ Assertion.Spells (assertions span) entries ∧
        entries.flatten = span.filter fun t => !isSeparator t := by
  constructor
  · intro ts hend
    refine ⟨flatten_statements_eq hend, fun s => ne_nil_of_mem_statements, head?_statements ts,
      fun k hk => ?_, forall₂_spells ts⟩
    obtain ⟨t, hmark⟩ := mem_statementStarts.mp hk
    exact (level_of_marked (fun _ => rfl) hmark).2.2
  · intro stops hard ts span
    have heof : ∀ t ∈ span, t.isEof = false := isEof_of_mem_span stops hard {} ts
    have hend : ∀ t ∈ span.dropLast, t.isEof = false := fun t ht =>
      heof t (List.mem_of_mem_dropLast ht)
    refine ⟨statements span, forall₂_spells span, ?_⟩
    rw [flatten_statements_eq hend]
    exact List.filter_congr fun t ht => by rw [heof t ht, Bool.not_false, Bool.and_true]

/-- `; a : f ( b ; c ) ) ; ; end if d then e ; end` and `g ;` on the next line, then the end of the
text: separators in front, behind, doubled, in brackets and in a block, and a bracket and an `end`
too many. -/
def sampleEntries : List Token :=
  sampleLine 1 [.operator .semicolon, .identifier, .operator .colon, .identifier,
      .operator .openParen, .identifier, .operator .semicolon, .identifier, .operator .closeParen,
      .operator .closeParen, .operator .semicolon, .operator .semicolon, .keyword .kwEnd,
      .keyword .kwIf, .identifier, .keyword .kwThen, .identifier, .operator .semicolon,
      .keyword .kwEnd] ++
    sampleLine 2 [.identifier, .operator .semicolon, .eof]

/-- Three statements, the first of them labeled. -/
theorem splitting_keeps_tokens_sample :
    (∀ t ∈ sampleEntries.dropLast, t.isEof = false) ∧
      statementStarts sampleEntries = [1, 12, 19] ∧
      (assertions sampleEntries).map (·.label.isSome) = [true, false, false] ∧
      (statements sampleEntries).flatten =
        sampleEntries.filter (fun t => !isSeparator t && !t.isEof) ∧
      Forall₂ Assertion.Spells (assertions sampleEntries) (statements sampleEntries) := by
  have hend : ∀ t ∈ sampleEntries.dropLast, t.isEof = false := by decide
  obtain ⟨hflatten, -, -, -, hspells⟩ := splitting_keeps_tokens.1 sampleEntries hend
  exact ⟨hend, by decide, by decide, hflatten, hspells⟩

end ContractLint
