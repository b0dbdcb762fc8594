/-
# Inline agents in preconditions

An inline agent is a routine written inside an expression, and the words that start its body (`do`,
`once`, `local`) are at the same time the words that end a precondition.  The span of a precondition
tells the two apart by depth alone: inside a block such a word opens an inner routine, outside all
blocks it ends the precondition.  Nothing looks at the keyword `agent` in front of it.

So an inline agent is read as it is written exactly where it stands inside a block.

* `spanLengthFrom_eq_length_iff`: a balanced span is taken as a whole if and only if no word that
  ends it stands outside all blocks (`Nesting.avoids`).
* `readFeatures_require_iff`: for a routine that is read without its precondition, whatever its body
  is and whatever follows it.  If the precondition shelters its agents in blocks, the block holds
  all of its assertions, the routine keeps its own body, and nothing is reported and nowhere resumed
  on its account; otherwise the block is cut short.
* `precondition_cut_at_agent`: one agent outside all blocks costs two errors, and the agent's body
  is taken for the routine's.
-/
import ContractLint.Proofs.Call
import ContractLint.Proofs.Completeness

namespace ContractLint

/-! ## 1. Where a span ends -/

/-- A span that holds a stop outside all blocks is cut at the first one. -/
theorem spanLengthFrom_lt {stops : List Keyword} {rest : List Token}
    (hrest : EndsSpan stops rest) : ∀ (ts : List Token) (n : Nesting),
    n.avoids stops ts = false → spanLengthFrom stops [.kwFeature] n (ts ++ rest) < ts.length
  | [], _, havoid => by cases havoid
  | t :: ts, n, havoid => by
    have hmanifest := hrest.isManifest_append ts
    have hfeed := n.feed_congr t hmanifest
    have ih := spanLengthFrom_lt hrest ts (n.feed t ts.head?)
    simp only [Nesting.avoids, Bool.and_eq_false_iff, Bool.not_eq_false'] at havoid
    simp only [List.cons_append, spanLengthFrom, hfeed, List.length_cons]
    split
    · exact Nat.succ_pos _
    · rename_i w hw
      split
      · exact Nat.succ_pos _
      · rename_i hstops
        rcases havoid with hstop | hlater
        · exfalso
          simp only [Token.isKeyword, hw] at hstop
          refine hstops ?_
          rw [Nesting.stopsAt, hmanifest]
          have honce : (w == .kwOnce) = [Keyword.kwOnce].contains w := by
            simp only [List.contains_cons, List.contains_nil, Bool.or_false]
          rw [honce, hstop]
          exact Bool.or_true _
        · exact Nat.succ_lt_succ (ih hlater)
    · rename_i hkeyword
      rcases havoid with hstop | hlater
      · exfalso
        unfold Token.isKeyword at hstop
        split at hstop
        · rename_i w hw
          exact hkeyword w hw
        · simp at hstop
      · exact Nat.succ_lt_succ (ih hlater)

/-- **A balanced span is taken as a whole exactly if no stop stands outside all blocks.** -/
theorem spanLengthFrom_eq_length_iff {stops : List Keyword} {rest ts : List Token}
    (hrest : EndsSpan stops rest) {n : Nesting}
    (hplain : ∀ t ∈ ts, t.isKeyword [.kwFeature] = false ∧ t.isEof = false)
    (hdepth : (n.feedAll ts).depth = 0) :
    spanLengthFrom stops [.kwFeature] n (ts ++ rest) = ts.length ↔ n.avoids stops ts = true := by
  constructor
  · intro hlength
    by_contra havoid
    have hlt := spanLengthFrom_lt hrest ts n (Bool.not_eq_true _ ▸ havoid)
    omega
  · intro havoid
    exact spanLengthFrom_append hrest ts n havoid hplain hdepth

/-! ## 2. Inline agents -/

/-- Whether `ts`, which follow the keyword of an agent, start a routine written in place: with its
body, or with its arguments. -/
def startsInline : List Token → Bool
  | [] => false
  | t :: ts =>
    t.isKeyword inlineKeywords ||
      (t.isSymbol [.openParen] && (matching? .openParen .closeParen (t :: ts)).any fun close =>
        ((t :: ts)[close + 1]?).any fun after =>
          after.isSymbol [.colon] || after.isKeyword inlineKeywords)

/-- Whether every agent of a span is written in place, or else can be read. -/
def completeAgents : List Token → Bool
  | [] => true
  | t :: ts =>
    (!t.isKeyword [.kwAgent] || startsInline ts || (readAgent t ts).1.isOk) && completeAgents ts

theorem readAgent_inline (keyword : Token) {ts : List Token} (h : startsInline ts = true) :
    (readAgent keyword ts).1 = .ok (.inline keyword.location) := by
  cases ts with
  | nil => cases h
  | cons t ts =>
    unfold readAgent
    dsimp only
    split
    · rfl
    · rename_i hinline
      simp only [startsInline, hinline, Bool.false_or, Bool.and_eq_true] at h
      obtain ⟨hparen, hclose⟩ := h
      obtain ⟨close, hclose, hafter⟩ := (Option.any_eq_true _ _).mp hclose
      obtain ⟨after, hafter, hroutine⟩ := (Option.any_eq_true _ _).mp hafter
      rw [if_pos hparen, hclose]
      dsimp only
      rw [hafter]
      dsimp only
      rw [if_pos hroutine]

theorem completeAgents_drop : ∀ {ts : List Token} (n : Nat), completeAgents ts = true →
    completeAgents (ts.drop n) = true
  | [], n, _ => by simp [completeAgents]
  | _ :: _, 0, h => h
  | _ :: _, n + 1, h => completeAgents_drop n ((Bool.and_eq_true _ _).mp h).2

/-- **Complete agents have no faults.** -/
theorem faults_constructs_complete {ts : List Token} (h : completeAgents ts = true) :
    Construct.faults (constructs ts) = [] := by
  fun_induction constructs ts with
  | case1 => rfl
  | case2 t rest hagent reading =>
    rename_i ih
    simp only [completeAgents, hagent, Bool.not_true, Bool.false_or, Bool.and_eq_true,
      Bool.or_eq_true] at h
    obtain ⟨hread, hlater⟩ := h
    rw [Construct.faults_cons, ih (completeAgents_drop _ hlater), List.append_nil]
    rcases hread with hinline | hread
    · rw [show reading.1 = _ from readAgent_inline t hinline]
      rfl
    · cases hreading : reading.1 with
      | ok a => rfl
      | error e =>
        rw [show (readAgent t rest).1 = _ from hreading] at hread
        cases hread
  | case3 t rest hagent q hq ih =>
    rw [Construct.faults_cons, ih ((Bool.and_eq_true _ _).mp h).2]
    rfl
  | case4 t rest hagent hq ih => exact ih ((Bool.and_eq_true _ _).mp h).2

/-! ## 3. Preconditions -/

/-- A precondition with inline agents: the keyword, perhaps the extension of an inherited
precondition, and a balanced span of assertions. -/
structure RequireForm where
  keyword : Word .kwRequire
  extension : Option (Word .kwElse)
  span : List Item
  balanced : (({} : Nesting).feedAll (span.map Item.token)).depth = 0
  plain : ∀ i ∈ span, i.token.isKeyword [.kwFeature] = false ∧ i.token.isEof = false
  fresh : ∀ i ∈ span.head?, i.token.isKeyword [.kwElse] = false
  complete : ∀ a ∈ assertions (span.map Item.token), completeAgents a.expression = true

namespace RequireForm

def items (r : RequireForm) : List Item :=
  r.keyword.item :: (optItems Leaf.items r.extension ++ r.span)

def block (r : RequireForm) : AssertionBlock where
  kind := .precondition
  location := r.keyword.location
  assertions := assertions (r.span.map Item.token)
  extended := r.extension.isSome

/-- Every word that could start the routine's own part stands inside a block. -/
def Sheltered (r : RequireForm) : Prop :=
  ({} : Nesting).avoids BlockGrammar.precondition.stops (r.span.map Item.token) = true

end RequireForm

/-- The words that start a routine's own part. -/
def ownKeywords : List Keyword :=
  [.kwLocal, .kwDo, .kwOnce, .kwDeferred, .kwExternal, .kwAttribute]

theorem EndsSpan.mono {vs ws : List Keyword} {ts : List Token} (h : EndsSpan vs ts)
    (hsubset : ∀ w ∈ vs, w ∈ ws) : EndsSpan ws ts := by
  cases ts with
  | nil => trivial
  | cons t ts => exact ⟨Token.isKeyword_mono h.1 hsubset, h.2⟩

/-- Where a routine's own part starts, no other keyword stands. -/
theorem EndsSpan.atKeyword {vs ws : List Keyword} {is : List Item} {e : Token}
    (h : EndsSpan vs (is.map Item.token)) (hdisjoint : ∀ w ∈ vs, w ∉ ws) :
    (⟨is, e⟩ : Cursor).atKeyword ws = false := by
  cases is with
  | nil => rfl
  | cons i is => exact Token.isKeyword_of_disjoint h.1 hdisjoint

section Require

variable (r : RequireForm) {tail : List Item} (e : Token)
  (hown : EndsSpan ownKeywords (tail.map Item.token))

include hown

/-- The extension of an inherited precondition is seen exactly where it is written. -/
theorem optKeyword_require :
    (⟨optItems Leaf.items r.extension ++ (r.span ++ tail), e⟩ : Cursor).optKeyword [.kwElse] =
      (optItems Leaf.items r.extension).length := by
  cases r.extension with
  | some l => simp [optItems, Leaf.items, Cursor.optKeyword]
  | none =>
    have hfresh : (⟨r.span ++ tail, e⟩ : Cursor).atKeyword [.kwElse] = false :=
      Cursor.test_append r.fresh (hown.atKeyword (by decide))
    simp [optItems, Cursor.optKeyword, hfresh]

theorem taken_readBlock_require :
    (readBlock .precondition ⟨r.items ++ tail, e⟩).taken =
      1 + (optItems Leaf.items r.extension).length +
        spanLength BlockGrammar.precondition.stops [.kwFeature]
          (r.span.map Item.token ++ tail.map Item.token) := by
  have hoptional := optKeyword_require r e hown
  simp only [readBlock, RequireForm.items, List.cons_append, List.append_assoc, Cursor.next_cons,
    BlockGrammar.precondition] at hoptional ⊢
  rw [hoptional, Cursor.drop_add, Cursor.drop_one_cons, Cursor.drop_append, Cursor.tokens,
    List.map_append]

/-- **A precondition is taken as a whole exactly if its agents are sheltered.** -/
theorem taken_readBlock_require_iff :
    (readBlock .precondition ⟨r.items ++ tail, e⟩).taken = r.items.length ↔ r.Sheltered := by
  have hplain : ∀ t ∈ r.span.map Item.token,
      t.isKeyword [.kwFeature] = false ∧ t.isEof = false := by
    intro t ht
    obtain ⟨i, hi, rfl⟩ := List.mem_map.mp ht
    exact r.plain i hi
  have hends : EndsSpan BlockGrammar.precondition.stops (tail.map Item.token) :=
    hown.mono (by decide)
  have hspan := spanLengthFrom_eq_length_iff hends hplain r.balanced
  rw [taken_readBlock_require r e hown, RequireForm.Sheltered, ← hspan]
  simp only [spanLength, RequireForm.items, List.length_cons, List.length_append, List.length_map]
  omega

theorem readBlock_require (h : r.Sheltered) :
    readBlock .precondition ⟨r.items ++ tail, e⟩ = ⟨r.block, r.items.length, Nat.succ_pos _⟩ := by
  have htaken := (taken_readBlock_require_iff r e hown).mpr h
  have hoptional := optKeyword_require r e hown
  have hspan : spanLength BlockGrammar.precondition.stops [.kwFeature]
      (⟨r.span ++ tail, e⟩ : Cursor).tokens = r.span.length := by
    have hlength := taken_readBlock_require r e hown
    rw [htaken] at hlength
    simp only [RequireForm.items, List.length_cons, List.length_append] at hlength
    rw [Cursor.tokens, List.map_append]
    omega
  have hextended : ((optItems Leaf.items r.extension).length == 1) = r.extension.isSome := by
    cases r.extension <;> rfl
  simp only [BlockGrammar.precondition] at hspan
  simp [readBlock, RequireForm.items, BlockGrammar.precondition, hoptional, Cursor.drop_add,
    hspan, hextended, RequireForm.block, Leaf.location]
  omega

/-! ## 4. Routines with preconditions -/

omit r in
theorem readBlock?_own : readBlock? .precondition .kwRequire ⟨tail, e⟩ = (none, 0) := by
  have hbare : (⟨tail, e⟩ : Cursor).atKeyword [.kwRequire] = false := hown.atKeyword (by decide)
  rw [readBlock?, hbare]
  rfl

omit r in
theorem precondition_own {routine : Taken Routine}
    (hroutine : readRoutine ⟨tail, e⟩ = .ok routine) : routine.value.precondition = none := by
  obtain ⟨n₁, n₂, n₄, n₅, body, hrequire, -⟩ := readRoutine_cases hroutine
  rw [readBlock?_own e hown] at hrequire
  exact (congrArg Prod.fst hrequire).symm

/-- A routine's own part is read the same behind a sheltered precondition as on its own. -/
theorem readRoutine_require (h : r.Sheltered) {routine : Taken Routine}
    (hroutine : readRoutine ⟨tail, e⟩ = .ok routine) :
    readRoutine ⟨r.items ++ tail, e⟩ =
      .ok ⟨{ routine.value with precondition := some r.block }, r.items.length + routine.taken,
        Nat.add_pos_left (Nat.succ_pos _) _⟩ := by
  have hrequire : (⟨r.items ++ tail, e⟩ : Cursor).atKeyword [.kwRequire] = true := by
    simp [RequireForm.items]
  have hblock : readBlock? .precondition .kwRequire ⟨r.items ++ tail, e⟩ =
      (some r.block, r.items.length) := by
    rw [readBlock?, hrequire, readBlock_require r e hown h]
    rfl
  have hbare := readBlock?_own e hown
  unfold readRoutine at hroutine ⊢
  simp only [hbare, hblock, Cursor.drop_add, Cursor.drop_append, Cursor.drop_zero] at hroutine ⊢
  obtain ⟨⟨locals, n₂⟩, hlocals, hroutine⟩ := exists_of_bind_eq_ok hroutine
  obtain ⟨body, hbody, hroutine⟩ := exists_of_bind_eq_ok hroutine
  simp only [hlocals, hbody, bind, Except.bind] at hroutine ⊢
  split at hroutine
  · rename_i hend
    cases hroutine
    simp [hend, pure, Except.pure, Nat.add_assoc]
  · cases hroutine

omit hown in
theorem RequireForm.faults_block : Construct.faults r.block.constructs = [] := by
  have hnone : ∀ as : List Assertion, (∀ a ∈ as, completeAgents a.expression = true) →
      Construct.faults (as.flatMap fun a => constructs a.expression) = [] := by
    intro as has
    induction as with
    | nil => rfl
    | cons a as ih =>
      rw [List.flatMap_cons, Construct.faults_append,
        faults_constructs_complete (has a List.mem_cons_self),
        ih fun b hb => has b (List.mem_cons_of_mem _ hb), List.append_nil]
  exact hnone _ r.complete

/-- A precondition adds nothing to the faults of a routine. -/
theorem faults_require {routine : Taken Routine} (hroutine : readRoutine ⟨tail, e⟩ = .ok routine) :
    Construct.faults { routine.value with precondition := some r.block : Routine }.constructs =
      Construct.faults routine.value.constructs := by
  have hbare := precondition_own e hown hroutine
  simp [Routine.constructs, hbare, r.faults_block]

theorem readFeatureBody_require (h : r.Sheltered) {routine : Taken Routine}
    (hroutine : readRoutine ⟨tail, e⟩ = .ok routine) (s : Signature) (last : Item) :
    readFeatureBody s last ⟨r.items ++ tail, e⟩ =
      .ok (s.routines last { routine.value with precondition := some r.block },
        r.items.length + routine.taken) := by
  have hheads : Heads [.keyword .kwRequire] (r.items ++ tail) := Heads.leaf r.keyword _
  have hobsolete : (⟨r.items ++ tail, e⟩ : Cursor).atKeyword [.kwObsolete] = false :=
    hheads.atKeyword (by decide)
  have hnote : (⟨r.items ++ tail, e⟩ : Cursor).atKeyword [.kwNote] = false :=
    hheads.atKeyword (by decide)
  have hatRoutine : (⟨r.items ++ tail, e⟩ : Cursor).atRoutine = true :=
    Word.atRoutine r.keyword _ e (by decide) (by decide)
  simp [readFeatureBody, obsoleteLength, noteLength, hobsolete, hnote, hatRoutine,
    readRoutine_require r e hown h hroutine, bind, Except.bind, pure, Except.pure]

end Require

/-- **A precondition is read as it is written exactly if its agents are sheltered.**  Take a routine
that is read where it has no precondition, whatever its own part is and whatever follows it, and put
a precondition in front of it.  The block takes up all of the precondition if and only if no word
that could start the routine's own part stands outside all blocks.  If so, the features of the
declaration have the precondition and what the routine had before, the only faults are those of the
routine's own part, and reading does not resume on account of the declaration. -/
theorem readFeatures_require_iff (s : SignatureForm) (r : RequireForm) (tail : List Item)
    (e : Token) (routine : Taken Routine) (hown : EndsSpan ownKeywords (tail.map Item.token))
    (hroutine : readRoutine ⟨tail, e⟩ = .ok routine) :
    let later := readFeatures ((⟨tail, e⟩ : Cursor).drop routine.taken)
    let whole : Routine := { routine.value with precondition := some r.block }
    ((readBlock .precondition ⟨r.items ++ tail, e⟩).taken = r.items.length ↔ r.Sheltered) ∧
      (r.Sheltered → readFeatures ⟨s.items ++ (r.items ++ tail), e⟩ =
        ⟨(s.signature.routines s.last whole).features ++ later.value,
          s.items.length + (r.items.length + routine.taken) + later.taken,
          Construct.faults routine.value.constructs ++ later.errors, later.resumed⟩) := by
  intro later whole
  refine ⟨taken_readBlock_require_iff r e hown, fun h => ?_⟩
  have hheads : Heads afterSignature (r.items ++ tail) :=
    (Heads.leaf r.keyword _).mono (by decide)
  obtain ⟨i, is, hs, hi⟩ := s.exists_cons
  have hstarts := startsDeclaration_of_kind hi
  have hbody := readFeatureBody_require r e hown h hroutine s.signature s.last
  have hdeclaration := readDeclaration_of_body s hstarts hheads hbody
  have hcons : (⟨s.items ++ (r.items ++ tail), e⟩ : Cursor).items =
      i :: (is ++ (r.items ++ tail)) := by
    rw [hs]
    rfl
  have hfaults : (s.signature.routines s.last whole).errors =
      Construct.faults routine.value.constructs := faults_require r e hown hroutine
  rw [readFeatures_of_ok hcons (not_boundary_of_startsDeclaration hstarts) hdeclaration, hfaults]
  simp only [Cursor.drop_add, Cursor.drop_append]
  rfl

/-! ## 5. Agents inside and outside of blocks -/

def sampleSignature : SignatureForm where
  names := .one ⟨none, sampleLeaf _ "f" 0⟩
  arguments := none
  result := none

/-- `require across l as c all g (agent do y end) end` -/
def sampleRequire : RequireForm where
  keyword := sampleLeaf _ "require" 2
  extension := none
  span :=
    [sampleItem (.keyword .kwAcross) "across" 10, sampleItem .identifier "l" 17,
      sampleItem (.keyword .kwAs) "as" 19, sampleItem .identifier "c" 22,
      sampleItem (.keyword .kwAll) "all" 24, sampleItem .identifier "g" 28,
      sampleItem (.operator .openParen) "(" 30, sampleItem (.keyword .kwAgent) "agent" 31,
      sampleItem (.keyword .kwDo) "do" 37, sampleItem .identifier "y" 40,
      sampleItem (.keyword .kwEnd) "end" 42, sampleItem (.operator .closeParen) ")" 45,
      sampleItem (.keyword .kwEnd) "end" 47]
  balanced := by decide
  plain := by decide
  fresh := by decide
  complete := by decide

/-- `do z end`, and the `end` of the class. -/
def sampleOwnPart : List Item :=
  [sampleItem (.keyword .kwDo) "do" 51, sampleItem .identifier "z" 54,
    sampleItem (.keyword .kwEnd) "end" 56, sampleItem (.keyword .kwEnd) "end" 60]

def sampleRoutine : Taken Routine where
  value := ⟨none, [], .instructions [(sampleItem .identifier "z" 54).token], none, ⟨1, 57, 56⟩⟩
  taken := 3

/-- An agent inside a block, in the precondition of a routine. -/
theorem readFeatures_require_across :
    let c : Cursor := ⟨sampleSignature.items ++ (sampleRequire.items ++ sampleOwnPart), default⟩
    (readFeatures c).errors = [] ∧ (readFeatures c).resumed = [] ∧
      (readFeatures c).value.map (fun f => (f.precondition, f.body)) =
        [(some sampleRequire.block, sampleRoutine.value.body)] := by
  intro c
  have hown : EndsSpan ownKeywords (sampleOwnPart.map Item.token) := ⟨by decide, by decide⟩
  have hsheltered : sampleRequire.Sheltered := by
    unfold RequireForm.Sheltered
    decide
  have hlater : readFeatures ((⟨sampleOwnPart, default⟩ : Cursor).drop 3) = ⟨[], 0, [], []⟩ :=
    readFeatures_of_boundary (by decide)
  have hread := (readFeatures_require_iff sampleSignature sampleRequire sampleOwnPart default
    sampleRoutine hown rfl).2 hsheltered
  have hfaults : Construct.faults sampleRoutine.value.constructs = [] := by cbv
  rw [show sampleRoutine.taken = 3 from rfl, hlater, hfaults] at hread
  rw [show c = _ from rfl, hread]
  exact ⟨rfl, rfl, rfl⟩

/-- An agent outside all blocks ends the precondition.  It is incomplete, its body is taken for the
routine's, and reading resumes at the parenthesis behind it. -/
theorem precondition_cut_at_agent :
    let text := "class A feature f require g (agent do y end) do z end end"
    let p := (Source.ofString text "a.e").lex.parse
    let paren : Token := { kind := .operator .closeParen, text := ")", location := ⟨1, 44, 43⟩ }
    p.errors = [⟨.incompleteAgent, ⟨1, 30, 29⟩⟩, ⟨.expectedFeature paren, paren.location⟩] ∧
      p.recoveries = 1 ∧
      (p.tree.classes.flatMap ClassDecl.features).map (fun f => f.body.tokens.map Token.text) =
        [["y"]] := by
  cbv

end ContractLint
