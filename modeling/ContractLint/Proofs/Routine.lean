/-
# Routines are read as they are written

A span has no brackets of its own: it lasts up to a keyword that ends it, and which keywords do
depends on the clause.  `spanLengthFrom_append` is the invariant behind every routine: read from ANY
nesting that the span closes, the scanner takes the span and stops at what follows.

Spans without agents hold nothing that could be faulty, so their constructs are quantifiers
(`exists_quantifier_of_mem_constructs`).
-/
import ContractLint.Proofs.Entity

namespace ContractLint

/-! ## 1. Spans -/

theorem isManifest_head_map (is : List Item) (e : Token) :
    isManifest (is.map Item.token).head? = (⟨is, e⟩ : Cursor).atString := by
  cases is <;> rfl

/-- What follows a span ends it: a keyword of `stops` that is not part of a string. -/
def EndsSpan (stops : List Keyword) : List Token → Prop
  | [] => True
  | t :: ts => t.isKeyword stops = true ∧ (t.isKeyword [.kwOnce] && isManifest ts.head?) = false

theorem EndsSpan.isManifest_head {stops : List Keyword} {rest : List Token}
    (h : EndsSpan stops rest) : isManifest rest.head? = false := by
  cases rest with
  | nil => rfl
  | cons t ts =>
    have ht := h.1
    unfold Token.isKeyword at ht
    split at ht
    · rename_i w hw
      simp [isManifest, Token.isString, hw]
    · cases ht

theorem EndsSpan.isManifest_append {stops : List Keyword} {rest : List Token}
    (h : EndsSpan stops rest) : ∀ ts : List Token,
    isManifest (ts ++ rest).head? = isManifest ts.head?
  | [] => h.isManifest_head
  | _ :: _ => rfl

/-- A keyword inside a span does not end it. -/
theorem not_stopsAt {stops : List Keyword} {n : Nesting} {t : Token} {ts : List Token} {w : Keyword}
    (hw : t.kind = .keyword w) (havoid : n.avoids stops (t :: ts) = true)
    (hplain : t.isKeyword [.kwFeature] = false) :
    n.stopsAt stops [.kwFeature] w ts.head? = false := by
  have hhard : [Keyword.kwFeature].contains w = false := by
    simp_all [Token.isKeyword]
  have hsoft : (n.depth == 0 && stops.contains w && !(w == .kwOnce && isManifest ts.head?)) =
      false := by
    simp only [Nesting.avoids, Token.isKeyword, hw, Bool.and_eq_true, Bool.not_eq_true'] at havoid
    simpa using havoid.1
  rw [Nesting.stopsAt, hhard, hsoft, Bool.or_false]

/-- A span is read up to what ends it, from every nesting that the span closes. -/
theorem spanLengthFrom_append {stops : List Keyword} {rest : List Token}
    (hrest : EndsSpan stops rest) : ∀ (ts : List Token) (n : Nesting),
    n.avoids stops ts = true →
    (∀ t ∈ ts, t.isKeyword [.kwFeature] = false ∧ t.isEof = false) →
    (n.feedAll ts).depth = 0 → spanLengthFrom stops [.kwFeature] n (ts ++ rest) = ts.length
  | [], n, _, _, hdepth => by
    cases rest with
    | nil => rfl
    | cons t ts =>
      obtain ⟨hstop, honce⟩ := hrest
      unfold Token.isKeyword at hstop honce
      split at hstop
      · rename_i w hw
        have hdepth : n.depth = 0 := hdepth
        have honce : (w == .kwOnce && isManifest ts.head?) = false := by simpa [hw] using honce
        have hstops : n.stopsAt stops [.kwFeature] w ts.head? = true := by
          rw [Nesting.stopsAt, hdepth, hstop, honce]
          exact Bool.or_true _
        simp [spanLengthFrom, hw, hstops]
      · cases hstop
  | t :: ts, n, havoid, hplain, hdepth => by
    have hmanifest := hrest.isManifest_append ts
    have hfeed := n.feed_congr t hmanifest
    have ih := spanLengthFrom_append hrest ts (n.feed t ts.head?)
      (Bool.and_eq_true_iff.mp havoid).2 (fun u hu => hplain u (List.mem_cons_of_mem _ hu)) hdepth
    obtain ⟨hkeyword, heof⟩ := hplain t List.mem_cons_self
    simp only [List.cons_append, spanLengthFrom, hfeed, ih, List.length_cons]
    split
    · simp_all [Token.isEof]
    · rename_i w hw
      have hstops := not_stopsAt hw havoid hkeyword
      unfold Nesting.stopsAt at hstops ⊢
      rw [hmanifest, hstops]
      rfl
    · rfl

theorem SpanForm.spanLength_append {stops : List Keyword} (s : SpanForm stops) {rest : List Item}
    (hrest : EndsSpan stops (rest.map Item.token)) (e : Token) :
    spanLength stops [.kwFeature] (⟨s.items ++ rest, e⟩ : Cursor).tokens = s.items.length := by
  have hplain : ∀ t ∈ s.items.map Item.token,
      t.isKeyword [.kwFeature] = false ∧ t.isEof = false := by
    intro t ht
    obtain ⟨i, hi, rfl⟩ := List.mem_map.mp ht
    obtain ⟨hkeyword, heof⟩ := s.plain i hi
    refine ⟨?_, heof⟩
    unfold Token.isKeyword at hkeyword ⊢
    split <;> simp_all
  have h := spanLengthFrom_append hrest _ {} s.avoids hplain s.balanced
  rwa [List.length_map, ← List.map_append] at h

/-- A keyword that is no `once` ends a span if the span stops at it. -/
theorem Heads.endsSpan {ks : List Kind} {rest : List Item} {stops : List Keyword}
    (h : Heads ks rest) (hstops : ∀ k ∈ ks, k ∈ stops.map Kind.keyword)
    (honce : Kind.keyword .kwOnce ∉ ks) : EndsSpan stops (rest.map Item.token) := by
  cases rest with
  | nil => trivial
  | cons i is =>
    have hi : (⟨i :: is, default⟩ : Cursor).atKeyword [.kwOnce] = false :=
      h.atKeyword (by simpa using honce)
    exact ⟨h.isKeyword rfl hstops, Bool.and_eq_false_iff.mpr (.inl hi)⟩

/-! ## 2. What a span without agents holds -/

theorem map_snd_marked : ∀ (ts : List Token) (n : Nesting) (prev : Option Token),
    (marked n prev ts).map Prod.snd = ts
  | [], _, _ => rfl
  | t :: ts, n, prev => by
    rw [marked]
    split
    · simp [Function.comp_def]
    · rw [List.map_cons, map_snd_marked ts]

theorem mem_of_mem_grouped : ∀ ms : List (Bool × Token),
    (∀ t ∈ (grouped ms).1, t ∈ ms.map Prod.snd) ∧
      ∀ s ∈ (grouped ms).2, ∀ t ∈ s, t ∈ ms.map Prod.snd
  | [] => by simp [grouped]
  | (begins, t) :: ms => by
    obtain ⟨hbefore, hgroups⟩ := mem_of_mem_grouped ms
    have hcons : ∀ u ∈ t :: (grouped ms).1, u ∈ ((begins, t) :: ms).map Prod.snd := by
      intro u hu
      rcases List.mem_cons.mp hu with rfl | hu
      · exact List.mem_cons_self
      · exact List.mem_cons_of_mem _ (hbefore u hu)
    have hrest : ∀ s ∈ (grouped ms).2, ∀ u ∈ s, u ∈ ((begins, t) :: ms).map Prod.snd :=
      fun s hs u hu => List.mem_cons_of_mem _ (hgroups s hs u hu)
    cases begins with
    | false => exact ⟨hcons, hrest⟩
    | true =>
      refine ⟨fun u hu => absurd hu List.not_mem_nil, fun s hs => ?_⟩
      rcases List.mem_cons.mp hs with rfl | hs
      · exact hcons
      · exact hrest s hs

/-- Statements hold only tokens of their span. -/
theorem mem_of_mem_statements {ts s : List Token} {t : Token} (hs : s ∈ statements ts)
    (ht : t ∈ s) : t ∈ ts := by
  obtain ⟨group, hgroup, rfl⟩ := List.mem_map.mp hs
  have h := (mem_of_mem_grouped (marked {} none ts)).2 group hgroup t (List.mem_filter.mp ht).1
  rwa [map_snd_marked] at h

theorem mem_of_mem_ofTokens {t u : Token} {ts : List Token}
    (h : u ∈ (Assertion.ofTokens t ts).expression) : u ∈ t :: ts := by
  unfold Assertion.ofTokens at h
  split at h
  · split at h
    · exact List.mem_cons_of_mem _ (List.mem_cons_of_mem _ h)
    · exact h
  · exact h

/-- The expressions of assertions hold only tokens of their span. -/
theorem mem_of_mem_assertions {span : List Token} {a : Assertion} {t : Token}
    (ha : a ∈ assertions span) (ht : t ∈ a.expression) : t ∈ span := by
  obtain ⟨s, hs, hsome⟩ := List.mem_filterMap.mp ha
  cases s with
  | nil => cases hsome
  | cons u us =>
    rw [← Option.some.inj hsome] at ht
    exact mem_of_mem_statements hs (mem_of_mem_ofTokens ht)

/-- Tokens without an agent's keyword. -/
def Agentless (ts : List Token) : Prop :=
  ∀ t ∈ ts, t.isKeyword [.kwAgent] = false

/-- All that is found where no agent starts is quantifiers. -/
theorem exists_quantifier_of_mem_constructs {ts : List Token} (h : Agentless ts) :
    ∀ c ∈ constructs ts, ∃ q, c = .quantifier q := by
  fun_induction constructs ts with
  | case1 => exact fun c hc => absurd hc List.not_mem_nil
  | case2 t rest hagent reading ih =>
    rw [h t List.mem_cons_self] at hagent
    cases hagent
  | case3 t rest hagent q hq ih =>
    intro c hc
    rcases List.mem_cons.mp hc with rfl | hc
    · exact ⟨_, rfl⟩
    · exact ih (fun u hu => h u (List.mem_cons_of_mem _ hu)) c hc
  | case4 t rest hagent hq ih => exact ih fun u hu => h u (List.mem_cons_of_mem _ hu)

theorem agents_eq_nil {cs : List Construct} (h : ∀ c ∈ cs, ∃ q, c = .quantifier q) :
    Construct.agents cs = [] := by
  refine List.filterMap_eq_nil_iff.mpr fun c hc => ?_
  obtain ⟨q, rfl⟩ := h c hc
  rfl

theorem faults_eq_nil {cs : List Construct} (h : ∀ c ∈ cs, ∃ q, c = .quantifier q) :
    Construct.faults cs = [] := by
  refine List.filterMap_eq_nil_iff.mpr fun c hc => ?_
  obtain ⟨q, rfl⟩ := h c hc
  rfl

theorem SpanForm.agentless {stops : List Keyword} (s : SpanForm stops) : Agentless s.tokens := by
  intro t ht
  obtain ⟨i, hi, rfl⟩ := List.mem_map.mp ht
  have h := (s.plain i hi).1
  unfold Token.isKeyword at h ⊢
  split <;> simp_all

theorem BlockForm.exists_quantifier {g : BlockGrammar} {w : Keyword} (b : BlockForm g w) :
    ∀ c ∈ b.block.constructs, ∃ q, c = .quantifier q := by
  intro c hc
  obtain ⟨a, ha, hc⟩ := List.mem_flatMap.mp hc
  exact exists_quantifier_of_mem_constructs
    (fun t ht => b.span.agentless t (mem_of_mem_assertions ha ht)) c hc

theorem BodyForm.agentless (b : BodyForm) : Agentless b.body.tokens := by
  cases b with
  | instructions keyword span => exact span.agentless
  | once keyword span bare => exact span.agentless
  | deferred keyword => exact fun t ht => absurd ht List.not_mem_nil

/-- A routine without agents has no faulty ones. -/
theorem RoutineForm.exists_quantifier (r : RoutineForm) :
    ∀ c ∈ r.routine.constructs, ∃ q, c = .quantifier q := by
  intro c hc
  rcases List.mem_append.mp hc with hc | hc
  · rcases List.mem_append.mp hc with hc | hc
    · obtain ⟨s, hs, hc⟩ := List.mem_flatMap.mp hc
      exact exists_quantifier_of_mem_constructs
        (fun t ht => r.body.agentless t (mem_of_mem_statements hs ht)) c hc
    · obtain ⟨block, hblock, hc⟩ := List.mem_flatMap.mp hc
      obtain ⟨b, -, rfl⟩ := Option.map_eq_some_iff.mp (Option.mem_toList.mp hblock)
      exact b.exists_quantifier c hc
  · obtain ⟨block, hblock, hc⟩ := List.mem_flatMap.mp hc
    obtain ⟨b, -, rfl⟩ := Option.map_eq_some_iff.mp (Option.mem_toList.mp hblock)
    exact b.exists_quantifier c hc

/-! ## 3. Routines -/

section Block

variable {g : BlockGrammar} {w : Keyword} {rest : List Item}

theorem readBlock_form (b : BlockForm g w) (e : Token)
    (hends : EndsSpan g.stops (rest.map Item.token))
    (hfresh : (⟨rest, e⟩ : Cursor).atKeyword g.extension = false) :
    readBlock g ⟨b.items ++ rest, e⟩ = ⟨b.block, b.items.length, Nat.succ_pos _⟩ := by
  have hextension : (⟨b.span.items ++ rest, e⟩ : Cursor).atKeyword g.extension = false :=
    Cursor.test_append b.fresh hfresh
  simp [readBlock, BlockForm.items, Cursor.optKeyword, hextension, b.span.spanLength_append hends,
    BlockForm.block, Leaf.location, SpanForm.tokens, Nat.add_comm 1]

theorem readBlock?_form (b : Option (BlockForm g w)) (e : Token) {ks : List Kind}
    (hends : EndsSpan g.stops (rest.map Item.token)) (hrest : Heads ks rest)
    (hks : ∀ v ∈ w :: g.extension, Kind.keyword v ∉ ks) :
    readBlock? g w ⟨optItems BlockForm.items b ++ rest, e⟩ =
      (b.map BlockForm.block, (optItems BlockForm.items b).length) := by
  have hw : (⟨rest, e⟩ : Cursor).atKeyword [w] = false := hrest.atKeyword fun v hv => hks v
    (List.mem_cons.mpr (.inl (List.mem_singleton.mp hv)))
  have hfresh : (⟨rest, e⟩ : Cursor).atKeyword g.extension = false :=
    hrest.atKeyword fun v hv => hks v (List.mem_cons_of_mem _ hv)
  cases b with
  | none => simp [optItems, readBlock?, hw]
  | some b =>
    have hword : (⟨b.items ++ rest, e⟩ : Cursor).atKeyword [w] = true := by simp [BlockForm.items]
    simp [optItems, readBlock?, hword, readBlock_form b e hends hfresh]

end Block

/-- The kinds that may follow the body of a routine. -/
def afterBody : List Kind :=
  [.keyword .kwEnsure, .keyword .kwRescue, .keyword .kwEnd]

theorem Heads.endsBody {rest : List Item} (h : Heads afterBody rest) :
    EndsSpan bodyStops (rest.map Item.token) :=
  h.endsSpan (by decide) (by decide)

theorem SpanForm.bodyLength_append (s : SpanForm bodyStops) {rest : List Item} (e : Token)
    (h : Heads afterBody rest) : (⟨s.items ++ rest, e⟩ : Cursor).bodyLength = s.items.length :=
  s.spanLength_append h.endsBody e

theorem BodyForm.length_items_pos (b : BodyForm) : 0 < b.items.length := by
  cases b <;> exact Nat.succ_pos _

theorem readBody_form (b : BodyForm) {rest : List Item} (e : Token) (h : Heads afterBody rest) :
    readBody ⟨b.items ++ rest, e⟩ = .ok ⟨b.body, b.items.length, b.length_items_pos⟩ := by
  cases b with
  | instructions keyword span =>
    have hspan := span.bodyLength_append e h
    simp [readBody, BodyForm.items, BodyForm.body, hspan, SpanForm.tokens, Nat.add_comm 1]
  | once keyword span bare =>
    have hparen : (⟨span.items ++ rest, e⟩ : Cursor).atSymbol [.openParen] = false :=
      Cursor.test_append (fun i hi => (bare i hi).2) (h.atSymbol (by decide))
    have hspan := span.bodyLength_append e h
    simp [readBody, readOnceKeys, BodyForm.items, BodyForm.body, hparen, hspan, SpanForm.tokens,
      Nat.add_comm 1]
  | deferred keyword =>
    simp [readBody, BodyForm.items, BodyForm.body, Leaf.items]

theorem rescueLength_form (r : Option RescueForm) {rest : List Item} (e : Token)
    (h : Heads [.keyword .kwEnd] rest) :
    rescueLength ⟨optItems RescueForm.items r ++ rest, e⟩ =
      (optItems RescueForm.items r).length := by
  cases r with
  | none =>
    have hrest : (⟨rest, e⟩ : Cursor).atKeyword [.kwRescue] = false := h.atKeyword (by decide)
    simp [optItems, rescueLength, hrest]
  | some r =>
    have hspan := r.span.bodyLength_append e (h.mono (by decide))
    simp [optItems, RescueForm.items, rescueLength, hspan, Nat.add_comm 1]

theorem BodyForm.heads (b : BodyForm) (rest : List Item) : Heads bodyHeads (b.items ++ rest) := by
  cases b with
  | instructions keyword span => exact (Heads.leaf keyword _).mono (by decide)
  | once keyword span bare => exact (Heads.leaf keyword _).mono (by decide)
  | deferred keyword => exact (Heads.leaf keyword _).mono (by decide)

/-- A body ends the precondition before it.  This is where a `once` must not be part of a string. -/
theorem BodyForm.endsSpan (b : BodyForm) {rest : List Item} (h : Heads afterBody rest) :
    EndsSpan BlockGrammar.precondition.stops ((b.items ++ rest).map Item.token) := by
  cases b with
  | instructions keyword span => exact ((Heads.leaf keyword _).endsSpan (by decide) (by decide))
  | once keyword span bare =>
    have hstring : (⟨span.items ++ rest, default⟩ : Cursor).atString = false :=
      Cursor.test_append (fun i hi => (bare i hi).1) (h.atString (by decide))
    have hmanifest : isManifest ((span.items ++ rest).map Item.token).head? = false := by
      rwa [isManifest_head_map _ default]
    exact ⟨by simp [BlockGrammar.precondition], Bool.and_eq_false_iff.mpr (.inr hmanifest)⟩
  | deferred keyword => exact ((Heads.leaf keyword _).endsSpan (by decide) (by decide))

theorem RoutineForm.length_items_pos (r : RoutineForm) : 0 < r.items.length := by
  have h := r.body.length_items_pos
  simp only [items, List.length_append]
  omega

theorem RoutineForm.heads_rescue (r : RoutineForm) (rest : List Item) :
    Heads [.keyword .kwRescue, .keyword .kwEnd]
      (optItems RescueForm.items r.rescue ++ (r.closing.items ++ rest)) :=
  Heads.opt (fun x => (Heads.leaf x.keyword _).mono (by decide))
    ((Heads.leaf r.closing rest).mono (by decide))

theorem RoutineForm.heads_postcondition (r : RoutineForm) (rest : List Item) :
    Heads afterBody (optItems BlockForm.items r.postcondition ++
      (optItems RescueForm.items r.rescue ++ (r.closing.items ++ rest))) :=
  Heads.opt (fun x => (Heads.leaf x.keyword _).mono (by decide))
    ((r.heads_rescue rest).mono (by decide))

theorem readRoutine_form (r : RoutineForm) (rest : List Item) (e : Token) :
    readRoutine ⟨r.items ++ rest, e⟩ = .ok ⟨r.routine, r.items.length, r.length_items_pos⟩ := by
  -- What follows each part, from the last part to the first.
  have hend : Heads [.keyword .kwEnd] (r.closing.items ++ rest) := Heads.leaf r.closing rest
  have hrescue := r.heads_rescue rest
  have hensure := r.heads_postcondition rest
  have hbody := r.body.heads (optItems BlockForm.items r.postcondition ++
      (optItems RescueForm.items r.rescue ++ (r.closing.items ++ rest)))
  have hlocals : Heads (.keyword .kwLocal :: bodyHeads) (optItems LocalsForm.items r.locals ++
      (r.body.items ++ (optItems BlockForm.items r.postcondition ++
        (optItems RescueForm.items r.rescue ++ (r.closing.items ++ rest))))) :=
    Heads.opt (fun x => (Heads.leaf x.keyword _).mono (by decide)) (hbody.mono (by decide))
  have hrequire : EndsSpan BlockGrammar.precondition.stops
      ((optItems LocalsForm.items r.locals ++ (r.body.items ++
        (optItems BlockForm.items r.postcondition ++ (optItems RescueForm.items r.rescue ++
          (r.closing.items ++ rest))))).map Item.token) := by
    cases r.locals with
    | none => exact r.body.endsSpan hensure
    | some l => exact (Heads.leaf l.keyword _).endsSpan (by decide) (by decide)
  have hpost : EndsSpan BlockGrammar.postcondition.stops
      ((optItems RescueForm.items r.rescue ++ (r.closing.items ++ rest)).map Item.token) :=
    hrescue.endsSpan (by decide) (by decide)
  unfold readRoutine
  simp only [RoutineForm.items, List.append_assoc,
    readBlock?_form r.precondition e hrequire hlocals (by decide), Cursor.drop_add,
    Cursor.drop_append, readLocals_form e hbody r.locals, readBody_form r.body e hensure,
    readBlock?_form r.postcondition e hpost hrescue (by decide), rescueLength_form r.rescue e hend,
    bind, Except.bind]
  simp [Leaf.items, pure, Except.pure, RoutineForm.routine, Leaf.location, Nat.add_assoc]

end ContractLint
