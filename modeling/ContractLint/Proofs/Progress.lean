/-
# Reading a class text comes to an end

A part that cannot be read costs an error, and reading goes on somewhere behind it.  So the question
whether reading comes to an end is a question about failures: the place where reading resumes must
lie behind the place where it started, for every production and for every way in which it can fail.

* **Places.**  `Stands c p` says that the parse of `c` may come to stand at index `p`: it holds of
  every index that productions lead to (`Moves`), whether the attempt they belong to is accepted or
  given up.  `Stands.lt_length`: such an index is one of a token, the end of the text included.
* **Turns.**  Each loop is taken turn by turn (`Turns`): `readParts_turns`, `readFeatures_turns` and
  `constructs_turns` say that the loop makes finitely many turns, that each moves on, and that
  together they take what the loop takes.
* **Recoveries.**  A turn that fails moves on too, so the number of recoveries is bounded by the
  number of tokens (`readClass_resumed_le`).

`parse_terminates_in_range` puts them together for the tokens of every text.
-/
import ContractLint.Proofs.Reach
import ContractLint.Proofs.Tiling
import Mathlib

namespace ContractLint

/-! ## 1. The tokens that the grammar reads -/

/-- The tokens left, closed by the end of the text. -/
def Cursor.allTokens (c : Cursor) : List Token :=
  c.tokens ++ [c.eof]

theorem Cursor.length_allTokens (c : Cursor) : c.allTokens.length = c.size + 1 := by
  simp [allTokens, tokens, size]

/-- Whether the grammar sees tokens of this kind: all but comments, indentation and characters that
start no token. -/
def Kind.isGrammatical (k : Kind) : Bool :=
  !k.isTrivia && k != .invalid

theorem Kind.isGrammatical_eq_isItem {k : Kind} (h : k ≠ .eof) : k.isGrammatical = k.isItem := by
  cases k <;> first | rfl | exact absurd rfl h

/-- The items of a text are its tokens of the kinds that the grammar reads. -/
theorem map_token_itemsAfter : ∀ (prev : Option Token) (ts : List Token),
    (itemsAfter prev ts).map Item.token = ts.filter (·.kind.isItem)
  | _, [] => rfl
  | prev, t :: ts => by
    rw [itemsAfter, List.filter_cons]
    split
    · rw [List.map_cons, map_token_itemsAfter]
    · exact map_token_itemsAfter prev ts

theorem tokens_ofLexed (s : Source) :
    (Cursor.ofLexed s.lex).tokens = s.innerTokens.filter (·.kind.isItem) := by
  have heof : s.eof.kind.isItem = false := rfl
  rw [Cursor.tokens, Cursor.ofLexed, map_token_itemsAfter, s.tokens_lex, List.filter_append,
    List.filter_singleton, heof]
  exact List.append_nil _

/-- **The parser's tokens** are those of the text without trivia and invalid characters. -/
theorem allTokens_ofLexed (s : Source) :
    (Cursor.ofLexed s.lex).allTokens = s.lex.tokens.filter (·.kind.isGrammatical) := by
  have hinner : s.innerTokens.filter (·.kind.isItem) =
      s.innerTokens.filter (·.kind.isGrammatical) :=
    List.filter_congr fun t ht => (Kind.isGrammatical_eq_isItem (s.tiles.proper t ht).1).symm
  rw [Cursor.allTokens, tokens_ofLexed, hinner, s.tokens_lex, List.filter_append]
  rfl

/-- The end of the text is the only token of its kind. -/
theorem not_isEof_of_mem_tokens {s : Source} {t : Token}
    (ht : t ∈ (Cursor.ofLexed s.lex).tokens) : t.isEof = false := by
  rw [tokens_ofLexed] at ht
  have h := (s.tiles.proper t (List.mem_of_mem_filter ht)).1
  simpa [Token.isEof] using h

/-! ## 2. Places of the parse -/

/-- `Moves c n`: some step of reading that starts at `c` ends `n` items further on.  The first
constructors are the steps that look at items themselves; the others are the productions, each with
the number of items that it answers. -/
inductive Moves (c : Cursor) : Nat → Prop
  | token (h : 0 < c.size) : Moves c 1
  | run (p : Item → Bool) : Moves c (c.items.takeWhile p).length
  | brackets : Moves c c.bracketLength
  | enclosed (h : 0 < c.size) (close : Symbol) : Moves c (c.enclosed close).2
  | span (stops hard : List Keyword) : Moves c (spanLength stops hard c.tokens)
  | qualifiers : Moves c (qualifierLength c.items)
  | pass {i : Item} {is : List Item} (h : c.items = i :: is) (column : Option Int) :
      Moves c (passLength column i is)
  | resume (column : Option Int) : Moves c (c.resumeLength column)
  | typeMark : Moves c (readTypeMark c).2
  | typeCore {n : Nat} (h : typeLength c = .ok n) : Moves c n
  | type {t : TypeRef} {n : Nat} (h : readType c = .ok (t, n)) : Moves c n
  | names {role : NameRole} {names : List Name} (h : readNames role c = .ok names) :
      Moves c (2 * names.length - 1)
  | entities {role : NameRole} {group : Taken (List Entity)} (h : readEntities role c = .ok group) :
      Moves c group.taken
  | argumentGroups {es : List Entity} {n : Nat} (h : readArgumentGroups c = .ok (es, n)) : Moves c n
  | arguments {es : List Entity} {n : Nat} (h : readArguments c = .ok (es, n)) : Moves c n
  | localGroups {es : List Entity} {n : Nat} (h : readLocalGroups c = .ok (es, n)) : Moves c n
  | locals {es : List Entity} {n : Nat} (h : readLocals c = .ok (es, n)) : Moves c n
  | block (g : BlockGrammar) (keyword : Keyword) : Moves c (readBlock? g keyword c).2
  | onceKeys : Moves c (readOnceKeys c).2
  | external {n : Nat} (h : externalLength c = .ok n) : Moves c n
  | body {b : Taken Body} (h : readBody c = .ok b) : Moves c b.taken
  | rescue : Moves c (rescueLength c)
  | routine {r : Taken Routine} (h : readRoutine c = .ok r) : Moves c r.taken
  | operatorAlias {n : Nat} (h : aliasLength c = .ok n) : Moves c n
  | declared {names : Taken (List (Name × Bool))} (h : readDeclared c = .ok names) :
      Moves c names.taken
  | result {t : Option TypeRef} {n : Nat} (h : readResult c = .ok (t, n)) : Moves c n
  | assigner {n : Nat} (h : assignerLength c = .ok n) : Moves c n
  | obsolete : Moves c (obsoleteLength c)
  | featureNote {n : Nat} (h : noteLength c = .ok n) : Moves c n
  | signature {s : Taken Signature} (h : readSignature c = .ok s) : Moves c s.taken
  | constant {s : Signature} {d : Taken Declaration} (h : readConstant s c = .ok d) :
      Moves c d.taken
  | featureBody {s : Signature} {last : Item} {d : Declaration} {n : Nat}
      (h : readFeatureBody s last c = .ok (d, n)) : Moves c n
  | declaration {first : Item} {d : Taken Declaration} (h : readDeclaration first c = .ok d) :
      Moves c d.taken
  | features : Moves c (readFeatures c).taken
  | clients : Moves c (readClients c).2
  | adaptation {n : Nat} (h : adaptationLength c = .ok n) : Moves c n
  | parents {names : List Name} {n : Nat} (h : readParents c = .ok (names, n)) : Moves c n
  | creators {names : List Name} {n : Nat} (h : readCreators c = .ok (names, n)) : Moves c n
  | conversion (h : 0 < c.size) : Moves c (conversionLength c)
  | classNote (h : 0 < c.size) : Moves c (classNoteLength c)
  | part {i : Item} {is : List Item} (h : c.items = i :: is) : Moves c (readPart i is c).taken
  | parts : Moves c (readParts c).taken
  | header : Moves c (recoverHeader c).taken

/-- **No step of reading ends behind the text.** -/
theorem Moves.le_size {c : Cursor} {n : Nat} (h : Moves c n) : n ≤ c.size := by
  cases h with
  | token h => exact h
  | run p => exact c.length_takeWhile_le p
  | brackets => exact c.bracketLength_le
  | enclosed h close => exact Cursor.enclosed_le h close
  | span stops hard => exact c.spanLength_le stops hard
  | qualifiers => exact qualifierLength_le c.items
  | pass h column => exact passLength_le column h
  | resume column => exact c.resumeLength_le column
  | typeMark => exact readTypeMark_le c
  | typeCore h => exact typeLength_le h
  | type h => exact readType_le h
  | names h => exact readNames_le h
  | entities h => exact readEntities_le h
  | argumentGroups h => exact Nat.le_of_lt (readArgumentGroups_lt h)
  | arguments h => exact readArguments_le h
  | localGroups h => exact readLocalGroups_le h
  | locals h => exact readLocals_le h
  | block g keyword => exact readBlock?_le g keyword c
  | onceKeys => exact readOnceKeys_le c
  | external h => exact externalLength_le h
  | body h => exact readBody_le h
  | rescue => exact rescueLength_le c
  | routine h => exact readRoutine_le h
  | operatorAlias h => exact aliasLength_le h
  | declared h => exact readDeclared_le h
  | result h => exact readResult_le h
  | assigner h => exact assignerLength_le h
  | obsolete => exact obsoleteLength_le c
  | featureNote h => exact noteLength_le h
  | signature h => exact readSignature_le h
  | constant h => exact readConstant_le h
  | featureBody h => exact readFeatureBody_le h
  | declaration h => exact readDeclaration_le h
  | features => exact readFeatures_le c
  | clients => exact readClients_le c
  | adaptation h => exact adaptationLength_le h
  | parents h => exact readParents_le h
  | creators h => exact readCreators_le h
  | conversion h => exact conversionLength_le h
  | classNote h => exact classNoteLength_le h
  | part h => exact readPart_le h
  | parts => exact readParts_le c
  | header => exact recoverHeader_le c

/-- `Stands c p`: the parse of `c` may come to stand in front of the item with index `p`. -/
inductive Stands (c : Cursor) : Nat → Prop
  | start : Stands c 0
  | move {p n : Nat} (h : Stands c p) (hn : Moves (c.drop p) n) : Stands c (p + n)

/-- **Every place of the parse is the index of a token**, that of the end of the text included. -/
theorem Stands.lt_length {c : Cursor} {p : Nat} (h : Stands c p) : p < c.allTokens.length := by
  rw [c.length_allTokens]
  induction h with
  | start => exact Nat.succ_pos _
  | move _ hn ih =>
    have h₁ := hn.le_size
    rw [Cursor.size_drop] at h₁
    omega

/-- The parts of a class are read from a place that the parse comes to: behind the note, the
header, the formal generics and the obsolete mark. -/
theorem exists_stands_parts (c : Cursor) :
    ∃ p, Stands c p ∧ (readClass c).taken = p + (readParts (c.drop p)).taken := by
  have hnote : Stands c (if c.atKeyword [.kwNote] then classNoteLength c else 0) := by
    split
    · rename_i h
      have hmove : Moves (c.drop 0) (classNoteLength c) :=
        .classNote (Cursor.size_pos_of_atKeyword h)
      simpa using Stands.start.move hmove
    · exact .start
  exact ⟨_, ((hnote.move .header).move .brackets).move .obsolete, rfl⟩

/-! ## 3. Loops, turn by turn -/

/-- `Turns turn? move s ns`: the loop that starts at `s` makes one turn for each number of `ns` and
then leaves.  `turn?` says how far the next turn moves on, or that the loop leaves. -/
inductive Turns {σ : Type} (turn? : σ → Option Nat) (move : σ → Nat → σ) : σ → List Nat → Prop
  | leave {s : σ} (h : turn? s = none) : Turns turn? move s []
  | turn {s : σ} {n : Nat} {ns : List Nat} (h : turn? s = some n)
      (rest : Turns turn? move (move s n) ns) : Turns turn? move s (n :: ns)

/-- The next turn of the loop over the parts of a class. -/
def partTurn? (c : Cursor) : Option Nat :=
  match c.items with
  | [] => none
  | i :: is => if i.token.isKeyword [.kwEnd] then none else some (readPart i is c).taken

/-- The next turn of the loop over declarations, whether the declaration is accepted or passed
over. -/
def featureTurn? (c : Cursor) : Option Nat :=
  match c.items with
  | [] => none
  | i :: is =>
    if i.token.isKeyword boundaryKeywords then none
    else match readDeclaration i c with
      | .ok d => some d.taken
      | .error _ => some (passLength (some i.token.column) i is)

/-- The next turn of the search for agents and quantifiers. -/
def constructTurn? : List Token → Option Nat
  | [] => none
  | t :: ts => some (if t.isKeyword [.kwAgent] then (readAgent t ts).2 + 1 else 1)

/-- **The loop over the parts of a class makes progress.**  It reads one part a turn, every turn
takes at least one item, and the turns together take what the loop takes. -/
theorem readParts_turns (c : Cursor) :
    ∃ ns, Turns partTurn? Cursor.drop c ns ∧ (∀ n ∈ ns, 0 < n) ∧
      ns.sum = (readParts c).taken ∧ ns.length = (readParts c).value.length := by
  fun_induction readParts c with
  | case1 c hc => exact ⟨[], .leave (by simp [partTurn?, hc]), by simp, rfl, rfl⟩
  | case2 c i is hc hend => exact ⟨[], .leave (by simp [partTurn?, hc, hend]), by simp, rfl, rfl⟩
  | case3 c i is hc hend hpos htaken part rest ih =>
    obtain ⟨ns, hturns, hns, hsum, hlength⟩ := ih
    have hturn : partTurn? c = some part.taken := by simp [partTurn?, hc, hend, part]
    refine ⟨part.taken :: ns, .turn hturn hturns, ?_, ?_, ?_⟩
    · exact List.forall_mem_cons.mpr ⟨htaken, hns⟩
    · rw [List.sum_cons, hsum]
    · rw [List.length_cons, hlength]
      rfl

/-- **The loop over declarations makes progress**, also where a declaration is given up. -/
theorem readFeatures_turns (c : Cursor) :
    ∃ ns, Turns featureTurn? Cursor.drop c ns ∧ (∀ n ∈ ns, 0 < n) ∧
      ns.sum = (readFeatures c).taken ∧ (readFeatures c).resumed.length ≤ ns.length := by
  fun_induction readFeatures c with
  | case1 c hc => exact ⟨[], .leave (by simp [featureTurn?, hc]), by simp, rfl, Nat.le_refl _⟩
  | case2 c i is hc hpos hi =>
    exact ⟨[], .leave (by simp [featureTurn?, hc, hi]), by simp, rfl, Nat.le_refl _⟩
  | case3 c i is hc hpos hi d hd rest ih =>
    obtain ⟨ns, hturns, hns, hsum, hresumed⟩ := ih
    have hturn : featureTurn? c = some d.taken := by simp [featureTurn?, hc, hi, hd]
    refine ⟨d.taken :: ns, .turn hturn hturns, ?_, ?_, ?_⟩
    · exact List.forall_mem_cons.mpr ⟨d.taken_pos, hns⟩
    · rw [List.sum_cons, hsum]
    · exact Nat.le_succ_of_le hresumed
  | case4 c i is hc hpos hi e he n rest ih =>
    obtain ⟨ns, hturns, hns, hsum, hresumed⟩ := ih
    have hturn : featureTurn? c = some n := by simp [featureTurn?, hc, hi, he, n]
    refine ⟨n :: ns, .turn hturn hturns, ?_, ?_, ?_⟩
    · exact List.forall_mem_cons.mpr ⟨passLength_pos _ _ _, hns⟩
    · rw [List.sum_cons, hsum]
    · exact Nat.succ_le_succ hresumed

/-- **The search for agents and quantifiers makes progress**: every turn moves on, none moves past
the end of the span, and a turn finds at most one construct. -/
theorem constructs_turns (ts : List Token) :
    ∃ ns, Turns constructTurn? (fun ts n => ts.drop n) ts ns ∧ (∀ n ∈ ns, 0 < n) ∧
      ns.sum = ts.length ∧ (constructs ts).length ≤ ns.length := by
  fun_induction constructs ts with
  | case1 => exact ⟨[], .leave rfl, by simp, rfl, Nat.le_refl _⟩
  | case2 t ts ht reading =>
    rename_i ih
    obtain ⟨ns, hturns, hns, hsum, hfound⟩ := ih
    have hturn : constructTurn? (t :: ts) = some (reading.2 + 1) := by
      simp [constructTurn?, ht, reading]
    have hle : reading.2 ≤ ts.length := readAgent_le t ts
    refine ⟨(reading.2 + 1) :: ns, .turn hturn hturns, ?_, ?_, ?_⟩
    · exact List.forall_mem_cons.mpr ⟨Nat.succ_pos _, hns⟩
    · rw [List.sum_cons, hsum, List.length_drop, List.length_cons]
      omega
    · exact Nat.succ_le_succ hfound
  | case3 t ts ht q hq ih =>
    obtain ⟨ns, hturns, hns, hsum, hfound⟩ := ih
    refine ⟨1 :: ns, .turn (by simp [constructTurn?, ht]) hturns, ?_, ?_, ?_⟩
    · exact List.forall_mem_cons.mpr ⟨Nat.one_pos, hns⟩
    · rw [List.sum_cons, hsum, List.length_cons, Nat.add_comm]
    · exact Nat.succ_le_succ hfound
  | case4 t ts ht hq ih =>
    obtain ⟨ns, hturns, hns, hsum, hfound⟩ := ih
    refine ⟨1 :: ns, .turn (by simp [constructTurn?, ht]) hturns, ?_, ?_, ?_⟩
    · exact List.forall_mem_cons.mpr ⟨Nat.one_pos, hns⟩
    · rw [List.sum_cons, hsum, List.length_cons, Nat.add_comm]
    · exact Nat.le_succ_of_le hfound

/-! ## 4. Recoveries -/

/-- A list of positive numbers is no longer than its sum. -/
theorem length_le_sum {ns : List Nat} (h : ∀ n ∈ ns, 0 < n) : ns.length ≤ ns.sum := by
  induction ns with
  | nil => exact Nat.le_refl _
  | cons n ns ih =>
    obtain ⟨hn, hns⟩ := List.forall_mem_cons.mp h
    have h₁ := ih hns
    rw [List.length_cons, List.sum_cons]
    omega

/-- Reading declarations resumes at most once for each item taken. -/
theorem readFeatures_resumed_le (c : Cursor) :
    (readFeatures c).resumed.length ≤ (readFeatures c).taken := by
  obtain ⟨ns, -, hns, hsum, hresumed⟩ := readFeatures_turns c
  exact Nat.le_trans hresumed (hsum ▸ length_le_sum hns)

/-- Reading a part resumes at most once for each item taken. -/
theorem readPart_resumed_le (i : Item) (is : List Item) (c : Cursor) :
    (readPart i is c).resumed.length ≤ (readPart i is c).taken := by
  generalize hr : readPart i is c = r
  cases readPart_cases hr with
  | parents | creators | conversion | invariant | note => exact Nat.zero_le _
  | faultyParents | faultyCreators => exact Nat.le_add_right 1 _
  | features => exact Nat.le_trans (readFeatures_resumed_le _) (Nat.le_add_left _ _)
  | loose => exact readFeatures_resumed_le c
  | unexpected => exact passLength_pos none i is

theorem readParts_resumed_le (c : Cursor) :
    (readParts c).resumed.length ≤ (readParts c).taken := by
  fun_induction readParts c with
  | case1 => exact Nat.le_refl _
  | case2 => exact Nat.le_refl _
  | case3 c i is hc hend hpos htaken part rest ih =>
    have h₁ : part.resumed.length ≤ part.taken := readPart_resumed_le i is c
    have h₂ : rest.resumed.length ≤ rest.taken := ih
    rw [List.length_append]
    exact Nat.add_le_add h₁ h₂

theorem recoverHeader_resumed_le (c : Cursor) : (recoverHeader c).resumed.length ≤ 1 := by
  unfold recoverHeader
  split
  · exact Nat.zero_le _
  · exact Nat.le_refl _

/-- **Reading resumes at most once for each token**, the end of the text included: the header may
fail without taking anything, and every other failure takes an item. -/
theorem readClass_resumed_le (c : Cursor) :
    (readClass c).resumed.length ≤ c.allTokens.length := by
  rw [c.length_allTokens]
  unfold readClass
  dsimp only
  rw [List.length_append]
  have h₁ := recoverHeader_resumed_le
    (c.drop (if c.atKeyword [.kwNote] then classNoteLength c else 0))
  refine Nat.le_trans (Nat.add_le_add h₁ (Nat.le_trans (readParts_resumed_le _)
    (readParts_le _))) ?_
  rw [Cursor.size_drop]
  omega

/-! ## 5. The parse of a text -/

/-- **The parse of every text comes to an end and stays inside the text.**  Its tokens are those of
the text without trivia and invalid characters, and the last of them is the only end of the text.
Every place at which the parse may stand is the index of a token, and the parts of the class are
read from such a place.  From every such place, the loop over the parts of a class and the loop over
declarations make finitely many turns, each of which moves on, and end inside the text; so does the
search for agents and quantifiers in any span.  The tree holds one class, and reading resumes at
most once for each token. -/
theorem parse_terminates_in_range (raw path : String) :
    let x := (Source.ofString raw path).lex
    let c := Cursor.ofLexed x
    (c.allTokens = x.tokens.filter (·.kind.isGrammatical) ∧
      c.allTokens = c.tokens ++ [c.eof] ∧ c.eof.isEof = true ∧
      ∀ t ∈ c.tokens, t.isEof = false) ∧
    (∀ p, Stands c p → p < c.allTokens.length) ∧
    (∃ p, Stands c p ∧ (readClass c).taken = p + (readParts (c.drop p)).taken) ∧
    (∀ p, Stands c p → ∃ ns, Turns partTurn? Cursor.drop (c.drop p) ns ∧ (∀ n ∈ ns, 0 < n) ∧
      ns.sum = (readParts (c.drop p)).taken ∧
      ns.length = (readParts (c.drop p)).value.length ∧ p + ns.sum < c.allTokens.length) ∧
    (∀ p, Stands c p → ∃ ns, Turns featureTurn? Cursor.drop (c.drop p) ns ∧ (∀ n ∈ ns, 0 < n) ∧
      ns.sum = (readFeatures (c.drop p)).taken ∧
      (readFeatures (c.drop p)).resumed.length ≤ ns.length ∧ p + ns.sum < c.allTokens.length) ∧
    (∀ ts, ∃ ns, Turns constructTurn? (fun ts n => ts.drop n) ts ns ∧ (∀ n ∈ ns, 0 < n) ∧
      ns.sum = ts.length ∧ (constructs ts).length ≤ ns.length) ∧
    x.parse.tree.classes.length = 1 ∧
    x.parse.recoveries ≤ c.allTokens.length := by
  intro x c
  refine ⟨⟨allTokens_ofLexed _, rfl, rfl, fun t ht => not_isEof_of_mem_tokens ht⟩,
    fun p hp => hp.lt_length, exists_stands_parts c, ?_, ?_, constructs_turns, rfl,
    readClass_resumed_le c⟩
  · intro p hp
    obtain ⟨ns, hturns, hpos, hsum, hlength⟩ := readParts_turns (c.drop p)
    refine ⟨ns, hturns, hpos, hsum, hlength, ?_⟩
    rw [hsum]
    exact (hp.move .parts).lt_length
  · intro p hp
    obtain ⟨ns, hturns, hpos, hsum, hresumed⟩ := readFeatures_turns (c.drop p)
    refine ⟨ns, hturns, hpos, hsum, hresumed, ?_⟩
    rw [hsum]
    exact (hp.move .features).lt_length

end ContractLint
