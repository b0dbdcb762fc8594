/-
# The tree follows the source

A cursor goes back after a failed attempt and jumps ahead when reading resumes; bodies are cut out
by a scan of their own; one declaration may introduce many features with one body.  In spite of
that, what a class text leaves in its tree is read from STRETCHES of its tokens that follow each
other and never overlap.  A stretch is what one declaration or one invariant takes, and `Arranged`
says that a list of things was read from such stretches.

* `portioned_readClass`: the features and invariants of a class come from arranged portions;
* `laidOut_readDeclaration`: within a declaration come the names, then the body, then the end;
* `Arranged.pairwise`: what is read later stands behind what is read earlier;
* `features_follow_source`: so names and ends of features are in the order of the text.

Nothing is said here about what stands between the stretches: it is what was passed over.
-/
import ContractLint.Proofs.Place
import ContractLint.Proofs.Point
import ContractLint.Proofs.Search
import ContractLint.Tree.Collect

namespace ContractLint

/-! ## 1. Stretches in a row -/

/-- `Arranged R ts xs`: the things `xs` were read, in order, from stretches of `ts` that follow each
other.  `R us x` says that `x` was read from the stretch `us`. -/
inductive Arranged {α : Type} (R : List Token → α → Prop) : List Token → List α → Prop
  | nil (ts : List Token) : Arranged R ts []
  | cons {us rest : List Token} {x : α} {xs : List α} (gap : List Token) (hx : R us x)
      (h : Arranged R rest xs) : Arranged R (gap ++ (us ++ rest)) (x :: xs)

namespace Arranged

variable {α : Type} {R S : List Token → α → Prop} {ts us : List Token} {xs ys : List α}

/-- Tokens may stand before the first stretch. -/
theorem pass (gap : List Token) (h : Arranged R ts xs) : Arranged R (gap ++ ts) xs := by
  cases h with
  | nil => exact .nil _
  | cons gap' hx h =>
    rw [← List.append_assoc]
    exact .cons (gap ++ gap') hx h

theorem append (hts : Arranged R ts xs) (hus : Arranged R us ys) :
    Arranged R (ts ++ us) (xs ++ ys) := by
  induction hts with
  | nil ts => exact hus.pass ts
  | cons gap hx h ih =>
    rw [List.append_assoc, List.append_assoc]
    exact .cons gap hx ih

theorem singleton {x : α} (hx : R ts x) : Arranged R ts [x] := by
  have h := Arranged.cons [] hx (.nil [])
  rwa [List.nil_append, List.append_nil] at h

theorem imp (hRS : ∀ us x, R us x → S us x) (h : Arranged R ts xs) : Arranged S ts xs := by
  induction h with
  | nil ts => exact .nil ts
  | cons gap hx h ih => exact .cons gap (hRS _ _ hx) ih

/-- Each thing was read from a stretch. -/
theorem exists_stretch (h : Arranged R ts xs) : ∀ x ∈ xs, ∃ us, us <:+: ts ∧ R us x := by
  induction h with
  | nil => exact fun x hx => nomatch hx
  | @cons us rest x xs gap hx h ih =>
    intro y hy
    rcases List.mem_cons.mp hy with rfl | hy
    · exact ⟨us, ⟨gap, rest, by rw [List.append_assoc]⟩, hx⟩
    · obtain ⟨vs, hpiece, hy⟩ := ih y hy
      refine ⟨vs, hpiece.trans ?_, hy⟩
      rw [← List.append_assoc]
      exact (List.suffix_append _ _).isInfix

/-- **What is read later stands behind what is read earlier.** -/
theorem pairwise {before : Token → Token → Prop} (h : Arranged R ts xs)
    (hts : ts.Pairwise before) : xs.Pairwise fun x y =>
      ∃ us vs, R us x ∧ R vs y ∧ ∀ t ∈ us, ∀ u ∈ vs, before t u := by
  induction h with
  | nil => exact .nil
  | @cons us rest x xs gap hx h ih =>
    obtain ⟨-, hrest, -⟩ := List.pairwise_append.mp hts
    obtain ⟨-, hrest, hacross⟩ := List.pairwise_append.mp hrest
    refine .cons (fun y hy => ?_) (ih hrest)
    obtain ⟨vs, hpiece, hy⟩ := h.exists_stretch y hy
    exact ⟨us, vs, hx, hy, fun t ht u hu => hacross t ht u (hpiece.subset hu)⟩

end Arranged

/-! ## 2. Names, bodies and ends -/

namespace Cursor

theorem take_one {c : Cursor} (hc : 0 < c.size) : c.take 1 = [c.peek] := by
  unfold size at hc
  unfold take peek
  cases h : c.items with
  | nil => simp [h] at hc
  | cons i is => rfl

theorem take_add_one {c : Cursor} {n : Nat} (hn : 0 < (c.drop n).size) :
    c.take (n + 1) = c.take n ++ [(c.drop n).peek] := by
  rw [take_add, take_one hn]

/-- A token and a piece of what comes `k` items after it are a piece of it all. -/
theorem sublist_cons_take {c : Cursor} {m k n : Nat} {ls : List Location}
    (hm : 0 < (c.drop m).size) (h : ls.Sublist (((c.drop (m + 1 + k)).take n).map Token.location)) :
    ((c.drop m).peek.location :: ls).Sublist ((c.take (m + 1 + k + n)).map Token.location) := by
  rw [take_add c (m + 1 + k), take_add c (m + 1), take_add_one hm]
  simp only [List.map_append, List.append_assoc, List.map_cons, List.cons_append,
    List.nil_append]
  refine List.Sublist.trans ?_ (List.sublist_append_right _ _)
  exact (h.trans (List.sublist_append_right _ _)).cons_cons _

end Cursor

/-- The names of a declaration stand in its first items, in order. -/
theorem sublist_readDeclared {c : Cursor} {names : Taken (List (Name × Bool))}
    (h : readDeclared c = .ok names) :
    (names.value.map (·.1.location)).Sublist ((c.take names.taken).map Token.location) := by
  fun_induction readDeclared c generalizing names with
  | case1 => cases h
  | case2 c frozen name hname hpos k hk declared hcomma rest hrest =>
    rename_i ih
    cases h
    exact Cursor.sublist_cons_take (k := k + 1) hpos (ih hrest)
  | case3 => cases h
  | case4 c frozen name hname hpos k hk =>
    cases h
    exact Cursor.sublist_cons_take (n := 0) hpos (List.nil_sublist _)
  | case5 => cases h

/-- A signature starts with its names, and where it has a result type it goes on behind them. -/
theorem sublist_readSignature {c : Cursor} {signature : Taken Signature}
    (h : readSignature c = .ok signature) : ∃ m,
      (signature.value.names.map (·.1.location)).Sublist ((c.take m).map Token.location) ∧
      m ≤ signature.taken ∧ (signature.value.returnType.isNone = false → m < signature.taken) := by
  obtain ⟨names, hnames, h⟩ := exists_of_bind_eq_ok h
  obtain ⟨⟨parameters, n₁⟩, -, h⟩ := exists_of_bind_eq_ok h
  obtain ⟨⟨returnType, n₂⟩, hresult, h⟩ := exists_of_bind_eq_ok h
  obtain ⟨n₃, -, h⟩ := exists_of_bind_eq_ok h
  cases h
  refine ⟨names.taken, sublist_readDeclared hnames, by dsimp only; omega, fun htyped => ?_⟩
  have hpos : 0 < n₂ := by
    unfold readResult at hresult
    split at hresult
    · obtain ⟨⟨type, k⟩, -, hresult⟩ := exists_of_bind_eq_ok hresult
      cases hresult
      omega
    · cases hresult
      cases htyped
  dsimp only
  omega

/-- The body of a routine is one piece of its tokens, and the last token is its end. -/
theorem split_readRoutine {c : Cursor} {routine : Taken Routine}
    (h : readRoutine c = .ok routine) : ∃ front back last,
      c.take routine.taken = front ++ (routine.value.body.tokens ++ (back ++ [last])) ∧
      routine.value.endLocation = last.location := by
  obtain ⟨n₁, n₂, n₄, n₅, body, -, -, hbody, hvalue, -, -, -, htaken⟩ := readRoutine_cases h
  obtain ⟨n, hn, hpos, hend⟩ := readRoutine_endLocation h
  obtain rfl : n = n₁ + n₂ + body.taken + (n₄ + n₅) := by omega
  obtain ⟨front, hfront⟩ := suffix_readBody hbody
  refine ⟨c.take (n₁ + n₂) ++ front, (c.drop (n₁ + n₂ + body.taken)).take (n₄ + n₅), _, ?_, hend⟩
  rw [hn, Cursor.take_add_one hpos, c.take_add (n₁ + n₂ + body.taken), c.take_add (n₁ + n₂),
    ← hfront, hvalue]
  simp only [List.append_assoc]

/-! ## 3. Declarations -/

/-- `d.LaidOut ts`: in the tokens `ts` of a declaration come the names of its features, then the
body that they share, then the token at which they all end. -/
def Declaration.LaidOut (d : Declaration) (ts : List Token) : Prop :=
  ∃ front body back last behind, ts = front ++ (body ++ (back ++ last :: behind)) ∧
    (d.features.map fun f => f.name.location).Sublist (front.map Token.location) ∧
    ∀ f ∈ d.features, f.body.tokens = body ∧ f.endLocation = last.location

theorem Cursor.take_of_last? {c : Cursor} {n : Nat} {last : Item} (h : c.last? n = some last) :
    ∃ front, c.take n = front ++ [last.token] := by
  obtain ⟨is, his⟩ := List.getLast?_eq_some_iff.mp h
  refine ⟨is.map Item.token, ?_⟩
  rw [take, his, List.map_append]
  rfl

/-- **A declaration is laid out in the items it takes.** -/
theorem laidOut_readDeclaration {first : Item} {c : Cursor} {d : Taken Declaration}
    (h : readDeclaration first c = .ok d) : d.value.LaidOut (c.take d.taken) := by
  obtain ⟨signature, hsignature, n, hn, last, hparts⟩ := readDeclaration_parts h
  obtain ⟨m, hnames, hm, hmtyped⟩ := sublist_readSignature hsignature
  have hwithin {k : Nat} (hk : m ≤ k) :
      (signature.value.names.map (·.1.location)).Sublist ((c.take k).map Token.location) := by
    refine hnames.trans (List.Sublist.map _ ?_)
    obtain ⟨j, rfl⟩ := Nat.exists_eq_add_of_le hk
    rw [c.take_add]
    exact List.sublist_append_left _ _
  rcases hparts with ⟨is, hitems, hd, htaken⟩ | ⟨hlast, hd, htyped, hle⟩ |
      ⟨routine, hroutine, hd, htaken⟩
  · -- a constant ends at its value, which is the last item
    have hpeek : (c.drop n).take 1 = [last.token] := by simp [Cursor.take, hitems]
    refine ⟨c.take n, [], [], last.token, [], ?_, ?_, ?_⟩
    · rw [htaken, c.take_add, hpeek]
      simp
    · rw [hd]
      simpa [Signature.constants, Function.comp_def] using hwithin (by omega)
    · intro f hf
      rw [hd] at hf
      obtain ⟨name, -, rfl⟩ := List.mem_map.mp hf
      exact ⟨rfl, rfl⟩
  · -- an attribute ends with its signature, in which the result type follows the names
    obtain ⟨front, hfront⟩ := Cursor.take_of_last? hlast
    obtain ⟨k, rfl⟩ : ∃ k, n = k + 1 := Nat.exists_eq_add_of_lt
      (Nat.lt_of_lt_of_le signature.taken_pos hn) |>.imp fun _ h => by omega
    obtain ⟨j, hj⟩ := Nat.exists_eq_add_of_le hle
    have hsize : 0 < (c.drop k).size := by
      have h₁ := congrArg List.length hfront
      have h₂ := readDeclaration_le h
      rw [Cursor.size_drop]
      omega
    have hk : front = c.take k ∧ [last.token] = [(c.drop k).peek] := by
      rw [Cursor.take_add_one hsize] at hfront
      exact List.append_inj' hfront.symm rfl
    refine ⟨front, [], [], last.token, (c.drop (k + 1)).take j, ?_, ?_, ?_⟩
    · rw [hj, c.take_add, hfront]
      simp
    · rw [hd, hk.1]
      have hmk : m ≤ k := by
        have := hmtyped htyped
        omega
      simpa [Signature.attributes, Function.comp_def] using hwithin hmk
    · intro f hf
      rw [hd] at hf
      obtain ⟨name, -, rfl⟩ := List.mem_map.mp hf
      exact ⟨rfl, rfl⟩
  · obtain ⟨front, back, last', hsplit, hend⟩ := split_readRoutine hroutine
    refine ⟨c.take n ++ front, routine.value.body.tokens, back, last', [], ?_, ?_, ?_⟩
    · rw [htaken, c.take_add, hsplit, List.append_assoc]
    · rw [hd, List.map_append]
      refine List.Sublist.trans ?_ (List.sublist_append_left _ _)
      simpa [Signature.routines, Function.comp_def] using hwithin (by omega)
    · intro f hf
      rw [hd] at hf
      obtain ⟨name, -, rfl⟩ := List.mem_map.mp hf
      exact ⟨rfl, hend⟩

/-! ## 4. The portions of a class -/

/-- What one stretch of a class text leaves in the tree. -/
inductive Portion where
  | declaration (d : Declaration)
  | invariant (i : Invariant)

namespace Portion

def features : Portion → List Feature
  | declaration d => d.features
  | invariant _ => []

def invariant? : Portion → Option Invariant
  | declaration _ => none
  | invariant i => some i

/-- `ReadIn c us p`: the portion `p` is what is read somewhere from `c` on, and `us` are the tokens
that it takes. -/
inductive ReadIn (c : Cursor) : List Token → Portion → Prop
  | declaration {n : Nat} {first : Item} {d : Taken Declaration}
      (h : readDeclaration first (c.drop n) = .ok d) :
      ReadIn c ((c.drop n).take d.taken) (.declaration d.value)
  | invariant (n : Nat) :
      ReadIn c ((c.drop n).take (readInvariant (c.drop n)).taken)
        (.invariant (readInvariant (c.drop n)).value.1)

theorem ReadIn.of_drop {c : Cursor} {n : Nat} (us : List Token) (p : Portion)
    (h : ReadIn (c.drop n) us p) : ReadIn c us p := by
  cases h with
  | declaration h =>
    rw [← Cursor.drop_add] at h ⊢
    exact .declaration h
  | invariant m =>
    rw [← Cursor.drop_add]
    exact .invariant (n + m)

end Portion

/-- The features `fs` and the invariants `is` come from arranged portions of `ts`, all of them read
from `c` on. -/
def Portioned (c : Cursor) (ts : List Token) (fs : List Feature) (is : List Invariant) : Prop :=
  ∃ ps : List Portion, Arranged (Portion.ReadIn c) ts ps ∧
    ps.flatMap Portion.features = fs ∧ ps.filterMap Portion.invariant? = is

namespace Portioned

variable {c : Cursor} {ts us : List Token} {fs gs : List Feature} {is js : List Invariant}

theorem nil (c : Cursor) (ts : List Token) : Portioned c ts [] [] :=
  ⟨[], .nil ts, rfl, rfl⟩

theorem append (h₁ : Portioned c ts fs is) (h₂ : Portioned c us gs js) :
    Portioned c (ts ++ us) (fs ++ gs) (is ++ js) := by
  obtain ⟨ps, hps, rfl, rfl⟩ := h₁
  obtain ⟨qs, hqs, rfl, rfl⟩ := h₂
  exact ⟨ps ++ qs, hps.append hqs, List.flatMap_append, List.filterMap_append⟩

theorem of_drop {n : Nat} (h : Portioned (c.drop n) ts fs is) : Portioned c ts fs is := by
  obtain ⟨ps, hps, rfl, rfl⟩ := h
  exact ⟨ps, hps.imp Portion.ReadIn.of_drop, rfl, rfl⟩

/-- What takes `m` items, and then what takes `n` items from there. -/
theorem add {m n : Nat} (h₁ : Portioned c (c.take m) fs is)
    (h₂ : Portioned (c.drop m) ((c.drop m).take n) gs js) :
    Portioned c (c.take (m + n)) (fs ++ gs) (is ++ js) := by
  rw [c.take_add]
  exact h₁.append h₂.of_drop

end Portioned

/-- A list of declarations, those that could not be read left out. -/
theorem portioned_readFeatures (c : Cursor) :
    Portioned c (c.take (readFeatures c).taken) (readFeatures c).value [] := by
  fun_induction readFeatures c with
  | case1 => exact .nil _ _
  | case2 => exact .nil _ _
  | case3 c i is hc hpos hi d hd rest ih =>
    refine Portioned.add ⟨[.declaration d.value], .singleton ?_, ?_, rfl⟩ ih
    · exact .declaration (n := 0) hd
    · exact List.append_nil _
  | case4 c i is hc hpos hi e he n rest ih => exact (Portioned.nil c _).add ih

/-- The features and the invariant of a part. -/
def Part.features : Part → List Feature
  | clause c => c.features
  | _ => []

def Part.invariant? : Part → Option Invariant
  | invariant i => some i
  | _ => none

theorem portioned_readPart (i : Item) (is : List Item) (c : Cursor) :
    Portioned c (c.take (readPart i is c).taken) (readPart i is c).value.features
      (readPart i is c).value.invariant?.toList := by
  generalize hr : readPart i is c = r
  cases readPart_cases hr with
  | features => exact (Portioned.nil c _).add (portioned_readFeatures _)
  | invariant => exact ⟨[.invariant (readInvariant c).value.1], .singleton (.invariant 0), rfl, rfl⟩
  | loose => exact portioned_readFeatures c
  | _ => exact .nil _ _

theorem portioned_readParts (c : Cursor) :
    Portioned c (c.take (readParts c).taken) ((readParts c).value.flatMap Part.features)
      ((readParts c).value.filterMap Part.invariant?) := by
  fun_induction readParts c with
  | case1 => exact .nil _ _
  | case2 => exact .nil _ _
  | case3 c i is hc hend hpos htaken part rest ih =>
    have h := (portioned_readPart i is c).add ih
    cases hinvariant : part.value.invariant? with
    | none => simpa [part, hinvariant] using h
    | some j => simpa [part, hinvariant] using h

theorem flatMap_features_clauses (ps : List Part) :
    (Part.clauses ps).flatMap Clause.features = ps.flatMap Part.features := by
  induction ps with
  | nil => rfl
  | cons p ps ih =>
    rw [List.flatMap_cons, ← ih]
    cases p <;> rfl

theorem filterMap_invariant? (ps : List Part) :
    Part.invariants ps = ps.filterMap Part.invariant? :=
  List.filterMap_congr fun p _ => by cases p <;> rfl

/-- **The features and invariants of a class come from portions of its tokens that follow each
other**, however often reading had to resume. -/
theorem portioned_readClass (c : Cursor) : ∃ is,
    (readClass c).value.invariant = Invariant.merge? is ∧
      Portioned c c.tokens (readClass c).value.features is := by
  obtain ⟨n, hclauses, hinvariant⟩ : ∃ n,
      (readClass c).value.clauses = Part.clauses (readParts (c.drop n)).value ∧
      (readClass c).value.invariant =
        Invariant.merge? (Part.invariants (readParts (c.drop n)).value) := ⟨_, rfl, rfl⟩
  refine ⟨_, hinvariant, ?_⟩
  rw [ClassDecl.features, hclauses, flatMap_features_clauses, filterMap_invariant?,
    ← c.take_append_tokens_drop n,
    ← (c.drop n).take_append_tokens_drop (readParts (c.drop n)).taken]
  have h := (Portioned.nil c (c.take n)).append ((portioned_readParts (c.drop n)).of_drop.append
    (Portioned.nil c ((c.drop n).drop (readParts (c.drop n)).taken).tokens))
  simpa using h

/-! ## 5. Features in order -/

/-- `f.LaidOut ts`: the body of the feature is one piece of `ts`, its name stands before that piece
and its end behind it. -/
def Feature.LaidOut (f : Feature) (ts : List Token) : Prop :=
  ∃ before after, ts = before ++ (f.body.tokens ++ after) ∧
    (∃ t ∈ before, t.location = f.name.location) ∧ ∃ t ∈ after, t.location = f.endLocation

/-- Two features come from one declaration that is read somewhere from `c` on. -/
def Feature.DeclaredWith (c : Cursor) (f g : Feature) : Prop :=
  ∃ n first d, readDeclaration first (c.drop n) = .ok d ∧
    f ∈ d.value.features ∧ g ∈ d.value.features

namespace Feature.LaidOut

variable {f : Feature} {ts us : List Token}

theorem of_piece (h : f.LaidOut us) (hpiece : us <:+: ts) : f.LaidOut ts := by
  obtain ⟨before, after, rfl, ⟨t, ht, hname⟩, ⟨u, hu, hend⟩⟩ := h
  obtain ⟨front, back, rfl⟩ := hpiece
  refine ⟨front ++ before, after ++ back, by simp only [List.append_assoc], ?_, ?_⟩
  · exact ⟨t, List.mem_append_right _ ht, hname⟩
  · exact ⟨u, List.mem_append_left _ hu, hend⟩

/-- The name comes first, then every token of the body, then the end. -/
theorem offset_lt (h : f.LaidOut ts) (hts : ts.Pairwise fun t u => t.offset < u.offset) :
    f.name.location.offset < f.endLocation.offset ∧
      ∀ t ∈ f.body.tokens, f.name.location.offset < t.offset ∧
        t.offset < f.endLocation.offset := by
  obtain ⟨before, after, rfl, ⟨t, ht, hname⟩, ⟨u, hu, hend⟩⟩ := h
  obtain ⟨-, hrest, hbefore⟩ := List.pairwise_append.mp hts
  obtain ⟨-, -, hafter⟩ := List.pairwise_append.mp hrest
  rw [← hname, ← hend]
  refine ⟨hbefore t ht u (List.mem_append_right _ hu), fun v hv => ⟨?_, hafter v hv u hu⟩⟩
  exact hbefore t ht v (List.mem_append_left _ hv)

end Feature.LaidOut

namespace Declaration.LaidOut

variable {d : Declaration} {ts : List Token}

theorem feature (h : d.LaidOut ts) {f : Feature} (hf : f ∈ d.features) : f.LaidOut ts := by
  obtain ⟨front, body, back, last, behind, rfl, hnames, hfeatures⟩ := h
  obtain ⟨rfl, hend⟩ := hfeatures f hf
  refine ⟨front, back ++ last :: behind, rfl, ?_, last, by simp, hend.symm⟩
  have hname := hnames.subset (List.mem_map_of_mem hf)
  exact List.mem_map.mp hname

/-- Names of one declaration stand behind each other, and all its features end at one place. -/
theorem pairwise_features (h : d.LaidOut ts) (hts : ts.Pairwise fun t u => t.offset < u.offset) :
    d.features.Pairwise fun f g =>
      f.name.location.offset < g.name.location.offset ∧ f.endLocation = g.endLocation := by
  obtain ⟨front, body, back, last, behind, rfl, hnames, hfeatures⟩ := h
  have hfront : (front.map Token.location).Pairwise fun l m => l.offset < m.offset :=
    List.pairwise_map.mpr (List.pairwise_append.mp hts).1
  refine (List.pairwise_map.mp (hfront.sublist hnames)).imp_of_mem fun {f g} hf hg hlt => ?_
  exact ⟨hlt, (hfeatures f hf).2.trans (hfeatures g hg).2.symm⟩

end Declaration.LaidOut

theorem Portion.ReadIn.laidOut {c : Cursor} {us : List Token} {p : Portion} {f : Feature}
    (h : ReadIn c us p) (hf : f ∈ p.features) : f.LaidOut us := by
  cases h with
  | declaration h => exact (laidOut_readDeclaration h).feature hf
  | invariant n => exact nomatch hf

namespace Source

/-- The tokens that the grammar reads stand behind each other. -/
theorem pairwise_offset_tokens (s : Source) :
    (Cursor.ofLexed s.lex).tokens.Pairwise fun t u => t.offset < u.offset := by
  rw [tokens_ofLexed]
  exact s.pairwise_offset.filter _

/-- The features of a text, in the order of its tree. -/
def features (s : Source) : List Feature :=
  s.lex.parse.tree.features.map Prod.snd

theorem features_eq (s : Source) :
    s.features = (readClass (Cursor.ofLexed s.lex)).value.features := by
  simp [features, Tree.features, Lexed.parse, Function.comp_def]

/-- Every feature of a text is laid out in its tokens. -/
theorem laidOut_of_mem_features {s : Source} {f : Feature} (hf : f ∈ s.features) :
    f.LaidOut (Cursor.ofLexed s.lex).tokens := by
  obtain ⟨is, -, ps, hps, hfeatures, -⟩ := portioned_readClass (Cursor.ofLexed s.lex)
  rw [features_eq, ← hfeatures] at hf
  obtain ⟨p, hp, hf⟩ := List.mem_flatMap.mp hf
  obtain ⟨us, hpiece, hread⟩ := hps.exists_stretch p hp
  exact (hread.laidOut hf).of_piece hpiece

/-- **Of two features of a text, the earlier one ends before the name of the later one**, unless
one declaration introduces both. -/
theorem pairwise_features (s : Source) : s.features.Pairwise fun f g =>
    f.name.location.offset < g.name.location.offset ∧
      (f.DeclaredWith (Cursor.ofLexed s.lex) g ∧ f.endLocation = g.endLocation ∨
        f.endLocation.offset < g.name.location.offset) := by
  obtain ⟨is, -, ps, hps, hfeatures, -⟩ := portioned_readClass (Cursor.ofLexed s.lex)
  rw [features_eq, ← hfeatures]
  refine List.pairwise_flatMap.mpr ⟨fun p hp => ?_, ?_⟩
  · -- within one portion
    obtain ⟨us, hpiece, hread⟩ := hps.exists_stretch p hp
    have hus := s.pairwise_offset_tokens.sublist hpiece.sublist
    cases hread with
    | invariant n => exact .nil
    | @declaration n first d hd =>
      refine ((laidOut_readDeclaration hd).pairwise_features hus).imp_of_mem ?_
      rintro f g hf hg ⟨hlt, hend⟩
      exact ⟨hlt, .inl ⟨⟨n, first, d, hd, hf, hg⟩, hend⟩⟩
  · -- across two portions, whose stretches follow each other
    have hacross := hps.pairwise s.pairwise_offset_tokens
    refine hacross.imp_of_mem fun {p q} hp hq => ?_
    rintro ⟨us, vs, hp', hq', hbefore⟩ f hf g hg
    obtain ⟨front, after, rfl, -, u, hu, hend⟩ := hp'.laidOut hf
    obtain ⟨before, back, rfl, ⟨t, ht, hname⟩, -⟩ := hq'.laidOut hg
    have hlt : f.endLocation.offset < g.name.location.offset := by
      rw [← hend, ← hname]
      exact hbefore u (by simp [hu]) t (by simp [ht])
    have hmem : f ∈ s.features := by
      rw [features_eq, ← hfeatures]
      exact List.mem_flatMap.mpr ⟨p, hp, hf⟩
    have hown := ((laidOut_of_mem_features hmem).offset_lt s.pairwise_offset_tokens).1
    exact ⟨Int.lt_trans hown hlt, .inr hlt⟩

end Source

/-- **The tree follows the source.**  For every text, the names of the features are at increasing
offsets.  The body of a feature is one piece of the parser's tokens, with the name before it and the
end behind it.  Two features, the first before the second, are either of one declaration and end at
one place, or the first ends before the name of the second. -/
theorem features_follow_source (raw path : String) :
    let s := Source.ofString raw path
    let c := Cursor.ofLexed s.lex
    (s.features.map fun f => f.name.location.offset).Pairwise (· < ·) ∧
    (∀ f ∈ s.features,
      (∃ before after, c.allTokens = before ++ (f.body.tokens ++ after) ∧
        (∃ t ∈ before, t.location = f.name.location) ∧
        ∃ t ∈ after, t.location = f.endLocation) ∧
      f.name.location.offset < f.endLocation.offset ∧
      ∀ t ∈ f.body.tokens,
        f.name.location.offset < t.offset ∧ t.offset < f.endLocation.offset) ∧
    s.features.Pairwise fun f g =>
      f.DeclaredWith c g ∧ f.endLocation = g.endLocation ∨
        f.endLocation.offset < g.name.location.offset := by
  intro s c
  have hordered := s.pairwise_features
  refine ⟨List.pairwise_map.mpr (hordered.imp fun h => h.1), fun f hf => ?_,
    hordered.imp fun h => h.2⟩
  have hlaid := Source.laidOut_of_mem_features hf
  refine ⟨hlaid.of_piece ?_, hlaid.offset_lt s.pairwise_offset_tokens⟩
  exact (List.prefix_append _ _).isInfix

end ContractLint
