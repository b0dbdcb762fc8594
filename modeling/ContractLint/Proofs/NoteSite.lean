/-
# Where a note is a feature's

`note` is a clause of a class, and it is also what may stand between the signature of a feature and
its routine.  The declaration decides: behind its signature it asks for a note, and whatever note is
there belongs to it.  The places at which declarations ask are the sites of a text; a constant has
none, and every other declaration has one.

At a fork where no declaration asks, all readers of declarations and clauses read the same from both
texts (`same_readFeatures`, `same_readPart`).  Where one asks, it takes the note for its own and
finds no routine behind it, and that is the fault it reports (`mem_errors_readFeatures`,
`mem_errors_readPart`).
-/
import ContractLint.Proofs.Fork
import ContractLint.Proofs.Isolation

namespace ContractLint

/-! ## 1. Declarations -/

/-- The number of items behind which the declaration at the cursor asks for the note of a feature:
those of its signature, of `is` and of an obsolete mark.  A constant does not ask. -/
def Cursor.noteAt? (c : Cursor) : Option Nat :=
  match readSignature c with
  | .error _ => none
  | .ok signature =>
    let rest := c.drop signature.taken
    if rest.atSymbol [.equal] then none
    else
      let n := signature.taken + rest.optKeyword [.kwIs]
      some (n + obsoleteLength (c.drop n))

namespace Fork

variable {left right : List Item} {k n : Nat} {c d : Cursor} (h : Fork left right k c d)
include h

theorem same_aliasLength (hn : aliasLength c = .ok n) : aliasLength d = .ok n := by
  unfold aliasLength at hn ⊢
  rw [h.atKeyword _ (by decide)]
  split at hn
  · rename_i halias
    have hnext := h.next (h.pos_of_atKeyword halias (by decide))
    rw [if_pos halias, hnext.atString]
    split at hn
    · rename_i hstring
      have hpos := hnext.pos_of_atString hstring
      rw [if_pos hstring, (h.drop (show 2 ≤ k by omega)).optKeyword _ (by decide), hn]
    · cases hn
  · rename_i halias
    rw [if_neg halias, hn]

theorem same_readDeclared {names : Taken (List (Name × Bool))} (hn : readDeclared c = .ok names)
    (hk : names.taken ≤ k) : readDeclared d = .ok names := by
  fun_induction readDeclared c generalizing k d names with
  | case1 => cases hn
  | case2 c frozen name hname hpos m hm declared hcomma rest =>
    rename_i hrest ih
    cases hn
    dsimp only at hk
    have hfrozen : d.optKeyword [.kwFrozen] = frozen := h.optKeyword _ (by decide)
    have hat : Fork left right (k - frozen) name (d.drop frozen) := h.drop (by omega)
    have hnext := hat.next (by omega)
    have hafter := h.drop (show frozen + 1 + m ≤ k by omega)
    have hrest' := ih (h.drop (by omega)) hrest (by omega)
    have hname' : (d.drop frozen).atIdentifier = true := hat.atIdentifier.trans hname
    have hcomma' := (hafter.atSymbol _).trans hcomma
    rw [readDeclared]
    simp only [hfrozen, hname', hnext.same_aliasLength hm, hat.peek (by omega), hcomma', hrest',
      dite_true, if_true]
    rfl
  | case3 => cases hn
  | case4 c frozen name hname hpos m hm =>
    rename_i hcomma
    cases hn
    dsimp only at hk
    have hfrozen : d.optKeyword [.kwFrozen] = frozen := h.optKeyword _ (by decide)
    have hat : Fork left right (k - frozen) name (d.drop frozen) := h.drop (by omega)
    have hnext := hat.next (by omega)
    have hafter := h.drop (show frozen + 1 + m ≤ k by omega)
    have hname' : (d.drop frozen).atIdentifier = true := hat.atIdentifier.trans hname
    have hcomma' : ¬ (d.drop (frozen + 1 + m)).atSymbol [.comma] = true := by
      rwa [hafter.atSymbol]
    rw [readDeclared]
    simp only [hfrozen, hname', hnext.same_aliasLength hm, hat.peek (by omega), hcomma', dite_true]
    rfl
  | case5 => cases hn

theorem same_readResult {type : Option TypeRef} (hn : readResult c = .ok (type, n)) (hk : n ≤ k) :
    readResult d = .ok (type, n) := by
  unfold readResult at hn ⊢
  rw [h.atSymbol]
  split at hn
  · rename_i hcolon
    obtain ⟨⟨type, m⟩, htype, hn⟩ := exists_of_bind_eq_ok hn
    cases hn
    rw [if_pos hcolon]
    exact bind_eq_ok ((h.next (by omega)).same_readType htype (by omega)) rfl
  · rename_i hcolon
    rw [if_neg hcolon, hn]

theorem same_assignerLength (hn : assignerLength c = .ok n) : assignerLength d = .ok n := by
  unfold assignerLength at hn ⊢
  rw [h.atKeyword _ (by decide)]
  split at hn
  · rename_i hassign
    rw [if_pos hassign, (h.next (h.pos_of_atKeyword hassign (by decide))).atIdentifier]
    split at hn
    · rename_i hname
      rw [if_pos hname, hn]
    · cases hn
  · rename_i hassign
    rw [if_neg hassign, hn]

theorem same_obsoleteLength : obsoleteLength d = obsoleteLength c := by
  unfold obsoleteLength
  rw [h.atKeyword _ (by decide)]
  split
  · rename_i hobsolete
    rw [(h.next (h.pos_of_atKeyword hobsolete (by decide))).atString]
  · rfl

/-- In front of the fork, a note is that of a feature and ends there. -/
theorem same_noteLength (hpos : 0 < k) (hn : noteLength c = .ok n) (hk : n ≤ k) :
    n < k ∧ noteLength d = .ok n := by
  have hnext := h.next hpos
  unfold noteLength at hn ⊢
  rw [h.atKeyword_of_pos hpos]
  split at hn
  · rename_i hnote
    dsimp only at hn ⊢
    split at hn
    · cases hn
    · rename_i hfind
      cases hn
      have hlt := hnext.length_takeWhile_lt (q := fun i => !i.token.isKeyword routineKeywords)
        (fun i hi => by simp [Token.isKeyword, hi, routineKeywords]) (by omega)
      rw [if_pos hnote, hnext.takeWhile hlt, hfind]
      exact ⟨by omega, rfl⟩
  · rename_i hnote
    cases hn
    exact ⟨hpos, if_neg hnote⟩

theorem same_atRoutine (hpos : 0 < k) : d.atRoutine = c.atRoutine := by
  rw [Cursor.atRoutine, Cursor.atRoutine, h.atKeyword_of_pos hpos, h.atKeyword_of_pos hpos,
    (h.next hpos).atString]

theorem same_readSignature {signature : Taken Signature} (hn : readSignature c = .ok signature)
    (hk : signature.taken ≤ k) : readSignature d = .ok signature := by
  obtain ⟨names, hnames, hn⟩ := exists_of_bind_eq_ok hn
  obtain ⟨⟨parameters, n₁⟩, hparameters, hn⟩ := exists_of_bind_eq_ok hn
  obtain ⟨⟨returnType, n₂⟩, hresult, hn⟩ := exists_of_bind_eq_ok hn
  obtain ⟨n₃, hassigner, hn⟩ := exists_of_bind_eq_ok hn
  cases hn
  dsimp only at hk
  refine bind_eq_ok (h.same_readDeclared hnames (by omega)) ?_
  refine bind_eq_ok ((h.drop (by omega)).same_readArguments hparameters (by omega)) ?_
  refine bind_eq_ok ((h.drop (by omega)).same_readResult hresult (by omega)) ?_
  exact bind_eq_ok ((h.drop (by omega)).same_assignerLength hassigner) rfl

theorem same_readConstant {s : Signature} {declared : Taken Declaration}
    (hn : readConstant s c = .ok declared) (hk : declared.taken ≤ k) :
    readConstant s d = .ok declared := by
  unfold readConstant at hn ⊢
  split at hn
  · cases hn
  · rename_i htyped
    rw [if_neg htyped]
    simp only [h.optSymbol] at hn ⊢
    split at hn
    · rename_i last is hitems
      split at hn
      · rename_i hconstant
        cases hn
        dsimp only at hk
        have hsign := h.drop (show c.optSymbol [.minus, .plus] ≤ k by omega)
        obtain ⟨i, is, js, hc, hd⟩ := hsign.exists_cons (by omega)
        obtain ⟨rfl, -⟩ : last = i ∧ _ := by simpa [hitems] using hc
        simp only [hd, if_pos hconstant]
      · cases hn
    · cases hn

/-- What follows a signature, if the note of the feature is looked for in front of the fork. -/
theorem same_readFeatureBody {s : Signature} {last : Item} {declared : Declaration}
    (hn : readFeatureBody s last c = .ok (declared, n)) (hk : n ≤ k) (hask : obsoleteLength c ≠ k) :
    readFeatureBody s last d = .ok (declared, n) := by
  obtain ⟨m, hnote, hn⟩ := exists_of_bind_eq_ok hn
  have hle : obsoleteLength c + m ≤ n := by
    dsimp only at hn
    split at hn
    · obtain ⟨routine, -, hn⟩ := exists_of_bind_eq_ok hn
      cases hn
      omega
    · split at hn
      · cases hn
      · cases hn
        exact Nat.le_refl _
  have hobsolete := h.same_obsoleteLength
  obtain ⟨hlt, hnote'⟩ := (h.drop (show obsoleteLength c ≤ k by omega)).same_noteLength (by omega)
    hnote (by omega)
  rw [← hobsolete] at hnote'
  refine bind_eq_ok hnote' ?_
  have hrest := h.drop (show obsoleteLength c + m ≤ k by omega)
  dsimp only at hn ⊢
  rw [hobsolete, hrest.same_atRoutine (by omega)]
  split at hn
  · rename_i hat
    obtain ⟨routine, hroutine, hn⟩ := exists_of_bind_eq_ok hn
    cases hn
    rw [if_pos hat]
    exact bind_eq_ok (hrest.same_readRoutine hroutine (by omega)) rfl
  · rename_i hat
    rw [if_neg hat]
    split at hn
    · cases hn
    · rename_i htyped
      rw [if_neg htyped, hn]

/-- **A declaration within the fork is read the same**, unless it asks for a note just there. -/
theorem same_readDeclaration {first : Item} {t : Taken Declaration}
    (hn : readDeclaration first c = .ok t) (hk : t.taken ≤ k) (hask : c.noteAt? ≠ some k) :
    readDeclaration first d = .ok t := by
  unfold readDeclaration at hn ⊢
  split at hn
  · cases hn
  rename_i hstarts
  rw [if_neg hstarts]
  obtain ⟨signature, hsignature, hn⟩ := exists_of_bind_eq_ok hn
  rw [Cursor.noteAt?, hsignature] at hask
  dsimp only at hn hask
  split at hn
  · rename_i hequal
    obtain ⟨declared, hdeclared, hn⟩ := exists_of_bind_eq_ok hn
    cases hn
    dsimp only at hk
    have hrest := h.drop (show signature.taken ≤ k by omega)
    refine bind_eq_ok (h.same_readSignature hsignature (by omega)) ?_
    dsimp only
    rw [if_pos ((hrest.atSymbol _).trans hequal)]
    exact bind_eq_ok ((hrest.next (by omega)).same_readConstant hdeclared (by omega)) rfl
  · rename_i hequal
    obtain ⟨⟨declared, m⟩, hbody, hn⟩ := exists_of_bind_eq_ok hn
    cases hn
    dsimp only at hk
    rw [if_neg hequal] at hask
    have hrest := h.drop (show signature.taken ≤ k by omega)
    have his := hrest.optKeyword [.kwIs] (by decide)
    have hbehind := h.drop
      (show signature.taken + (c.drop signature.taken).optKeyword [.kwIs] ≤ k by omega)
    refine bind_eq_ok (h.same_readSignature hsignature (by omega)) ?_
    dsimp only
    rw [if_neg (by rwa [hrest.atSymbol])]
    simp only [his]
    rw [h.last? (by omega)]
    refine bind_eq_ok (hbehind.same_readFeatureBody hbody (by omega) fun h => hask ?_) rfl
    exact congrArg some (by omega)

/-- A declaration that asks for a note at the fork finds the one of `d`. -/
theorem readDeclaration_of_asks {first : Item} {e : SyntaxError}
    (hstarts : first.startsDeclaration = true) (hask : c.noteAt? = some k)
    (he : noteLength (d.drop k) = .error e) : readDeclaration first d = .error e := by
  unfold Cursor.noteAt? at hask
  split at hask
  · cases hask
  rename_i signature hsignature
  dsimp only at hask
  split at hask
  · cases hask
  rename_i hequal
  have hsum := Option.some.inj hask
  have hrest := h.drop (show signature.taken ≤ k by omega)
  have his := hrest.optKeyword [.kwIs] (by decide)
  have hbehind := h.drop
    (show signature.taken + (c.drop signature.taken).optKeyword [.kwIs] ≤ k by omega)
  unfold readDeclaration
  rw [hstarts, h.same_readSignature hsignature (by omega)]
  simp only [Bool.not_true, Bool.false_eq_true, if_false, bind, Except.bind, hrest.atSymbol, hequal,
    his, readFeatureBody, hbehind.same_obsoleteLength, ← Cursor.drop_add, hsum, he]

end Fork

/-! ## 2. Lists of declarations -/

/-- Where the declarations at the cursor ask for the note of a feature. -/
def featureNoteSites (c : Cursor) : List Nat :=
  match h : c.items with
  | [] => []
  | i :: is =>
    have : 0 < c.size := by simp [Cursor.size, h]
    if i.token.isKeyword boundaryKeywords then []
    else match readDeclaration i c with
      | .ok d => c.noteAt?.toList ++ (featureNoteSites (c.drop d.taken)).map (d.taken + ·)
      | .error _ => []
termination_by c.size
decreasing_by exact Cursor.size_drop_taken_lt this d

theorem featureNoteSites_of_boundary {c : Cursor}
    (h : ∀ i ∈ c.items.head?, i.token.isKeyword boundaryKeywords = true) :
    featureNoteSites c = [] := by
  rw [featureNoteSites]
  split
  · rfl
  · rename_i i is hc
    have hi : i.token.isKeyword boundaryKeywords = true := h i (by rw [hc]; rfl)
    rw [if_pos hi]

theorem featureNoteSites_of_ok {c : Cursor} {i : Item} {is : List Item} {t : Taken Declaration}
    (hc : c.items = i :: is) (hi : i.token.isKeyword boundaryKeywords = false)
    (ht : readDeclaration i c = .ok t) :
    featureNoteSites c =
      c.noteAt?.toList ++ (featureNoteSites (c.drop t.taken)).map (t.taken + ·) := by
  rw [featureNoteSites]
  split
  · simp_all
  · rename_i j js hj
    obtain ⟨rfl, rfl⟩ : i = j ∧ is = js := by simpa [hc] using hj
    simp only [hi, ht, Bool.false_eq_true, if_false]

theorem readFeatures_of_atBoundary {c : Cursor} (h : c.atKeyword boundaryKeywords = true) :
    readFeatures c = ⟨[], 0, [], []⟩ := by
  refine readFeatures_of_boundary fun i hi => ?_
  rwa [Cursor.atKeyword, Cursor.test, Option.mem_def.mp hi] at h

/-- Sites are counted from the cursor on. -/
theorem mem_map_add_iff {k m : Nat} {sites : List Nat} (h : m ≤ k) :
    k ∈ sites.map (m + ·) ↔ k - m ∈ sites := by
  rw [List.mem_map]
  constructor
  · rintro ⟨n, hn, rfl⟩
    rwa [Nat.add_sub_cancel_left]
  · exact fun hk => ⟨k - m, hk, Nat.add_sub_cancel' h⟩

namespace Fork

variable {left right : List Item} {k n : Nat} {c d : Cursor} (h : Fork left right k c d)
include h

/-- **Declarations within the fork are read the same**, unless the last one asks for a note
there. -/
theorem same_readFeatures (hclean : (readFeatures c).errors = []) (hk : (readFeatures c).taken ≤ k)
    (hask : k ∉ featureNoteSites c) : readFeatures d = readFeatures c := by
  induction c using readFeatures.induct generalizing k d with
  | case1 c hc => exact absurd hc h.items_ne_nil.1
  | case2 c i is hc hpos hboundary =>
    have hc' : c.atKeyword boundaryKeywords = true := by
      rwa [Cursor.atKeyword, Cursor.test, hc]
    rw [readFeatures_of_atBoundary hc', readFeatures_of_atBoundary (h.atBoundary.trans hc')]
  | case3 c i is hc hpos hboundary t ht ih =>
    have hboundary := Bool.eq_false_iff.mpr hboundary
    rw [featureNoteSites_of_ok hc hboundary ht] at hask
    have hread := readFeatures_of_ok hc hboundary ht
    rw [hread] at hclean hk
    dsimp only at hclean hk
    have hpos := t.taken_pos
    have ht' := h.same_readDeclaration ht (by omega) fun hsite =>
      hask (List.mem_append_left _ (by rw [hsite]; exact List.mem_singleton_self k))
    obtain ⟨j, js, ks, hj, hd⟩ := h.exists_cons (by omega)
    obtain ⟨rfl, rfl⟩ : i = j ∧ is = js := by simpa [hc] using hj
    rw [hread, readFeatures_of_ok hd hboundary ht', ih (h.drop (by omega))
      (List.append_eq_nil_iff.mp hclean).2 (by omega) fun hsite =>
        hask (List.mem_append_right _ ((mem_map_add_iff (by omega)).mpr hsite))]
  | case4 c i is hc hpos hboundary e he ih =>
    rw [readFeatures_of_error hc (Bool.eq_false_iff.mpr hboundary) he rfl] at hclean
    cases hclean

/-- Where a declaration asks for a note at the fork, the note of `d` is its fault. -/
theorem mem_errors_readFeatures {e : SyntaxError} (hask : k ∈ featureNoteSites c)
    (he : noteLength (d.drop k) = .error e) : e ∈ (readFeatures d).errors := by
  induction c using featureNoteSites.induct generalizing k d with
  | case1 c hc =>
    rw [featureNoteSites] at hask
    split at hask <;> simp_all
  | case2 c i is hc hpos hboundary =>
    rw [featureNoteSites] at hask
    split at hask <;> simp_all
  | case3 c i is hc hpos hboundary t ht ih =>
    have hboundary := Bool.eq_false_iff.mpr hboundary
    obtain ⟨j, js, ks, hj, hd⟩ := h.exists_cons (h.pos_of_head hc hboundary (by decide))
    obtain ⟨rfl, rfl⟩ : i = j ∧ is = js := by simpa [hc] using hj
    by_cases hsite : c.noteAt? = some k
    · have he' := h.readDeclaration_of_asks (startsDeclaration_of_ok ht) hsite he
      rw [readFeatures_of_error hd hboundary he' rfl]
      exact List.mem_cons_self
    rw [featureNoteSites_of_ok hc hboundary ht, List.mem_append] at hask
    have hlater := hask.resolve_left fun hmem => hsite (Option.mem_toList.mp hmem)
    obtain ⟨m, -, hm⟩ := List.mem_map.mp hlater
    have hle : t.taken ≤ k := by omega
    rw [readFeatures_of_ok hd hboundary (h.same_readDeclaration ht hle hsite)]
    refine List.mem_append_right _ (ih (h.drop hle) ((mem_map_add_iff hle).mp hlater) ?_)
    rw [← Cursor.drop_add, Nat.add_sub_cancel' hle]
    exact he
  | case4 c i is hc hpos hboundary e he =>
    rw [featureNoteSites] at hask
    split at hask <;> simp_all

end Fork

/-! ## 3. Parts -/

/-- Where the part whose first item is `i`, the one at the cursor, asks for the note of a
feature. -/
def partNoteSites (i : Item) (c : Cursor) : List Nat :=
  if i.token.isKeyword [.kwFeature] then
    let n := 1 + (readClients c.next).2
    (featureNoteSites (c.drop n)).map (n + ·)
  else if i.startsDeclaration then featureNoteSites c
  else []

namespace Fork

variable {left right : List Item} {k n : Nat} {c d : Cursor} (h : Fork left right k c d)
include h

theorem same_readClients (hk : (readClients c).2 ≤ k) : readClients d = readClients c := by
  unfold readClients at hk ⊢
  rw [h.atSymbol]
  split
  · rename_i hopen
    rw [if_pos hopen] at hk
    rw [h.enclosed hk]
  · rfl

theorem same_adaptationLength (hn : adaptationLength c = .ok n) (hk : n ≤ k) :
    adaptationLength d = .ok n := by
  unfold adaptationLength at hn ⊢
  rw [h.atKeyword _ (by decide)]
  split at hn
  · rename_i hadapts
    dsimp only at hn ⊢
    split at hn
    · cases hn
    · rename_i hfind
      split at hn
      · rename_i hend
        cases hn
        have hshort : (c.items.takeWhile fun i => !i.token.isKeyword [.kwEnd]).length ≤ k := by omega
        have hinside := h.takeWhile (q := fun i => !i.token.isKeyword [.kwEnd]) (by omega)
        have hlast := h.drop hshort
        rw [if_pos hadapts, hinside, hfind, hlast.atKeyword_of_pos (by omega)]
        exact if_pos hend
      · cases hn
  · rename_i hadapts
    rw [if_neg hadapts, hn]

theorem atEnd_eq_false : c.atEnd = false ∧ d.atEnd = false :=
  ⟨List.isEmpty_eq_false_iff.mpr h.items_ne_nil.1, List.isEmpty_eq_false_iff.mpr h.items_ne_nil.2⟩

theorem same_readParents {names : List Name} (hn : readParents c = .ok (names, n)) (hk : n ≤ k) :
    readParents d = .ok (names, n) := by
  fun_induction readParents c generalizing k d names n with
  | case1 c hend => exact absurd hend (Bool.eq_false_iff.mp h.atEnd_eq_false.1)
  | case2 c hend hpos hname m =>
    rename_i ih
    obtain ⟨l, hl, hn⟩ := exists_of_bind_eq_ok hn
    obtain ⟨⟨rest, j⟩, hrest, hn⟩ := exists_of_bind_eq_ok hn
    cases hn
    have hname' := hname
    rw [← h.atIdentifier, ← h.atKeyword [.kwTuple] (by decide)] at hname'
    have hbrackets : 1 + d.next.bracketLength = m := by
      rw [(h.next (by omega)).bracketLength (by omega)]
    rw [readParents, dif_neg (Bool.eq_false_iff.mp h.atEnd_eq_false.2), if_pos hname', hbrackets]
    refine bind_eq_ok ((h.drop (by omega)).same_adaptationLength hl (by omega)) ?_
    refine bind_eq_ok (ih l (h.drop (by omega)) hrest (by omega)) ?_
    rw [h.peek (by omega)]
    rfl
  | case3 c hend hpos hname hsemicolon ih =>
    obtain ⟨⟨rest, l⟩, hrest, hn⟩ := exists_of_bind_eq_ok hn
    cases hn
    rw [readParents, dif_neg (Bool.eq_false_iff.mp h.atEnd_eq_false.2), h.atIdentifier,
      h.atKeyword [.kwTuple] (by decide), if_neg hname, h.atSymbol, if_pos hsemicolon]
    exact bind_eq_ok (ih (h.next (by omega)) hrest (by omega)) rfl
  | case4 c hend hpos hname hsemicolon hboundary =>
    rw [readParents, dif_neg (Bool.eq_false_iff.mp h.atEnd_eq_false.2), h.atIdentifier,
      h.atKeyword [.kwTuple] (by decide), if_neg hname, h.atSymbol, if_neg hsemicolon,
      h.atBoundary, if_pos hboundary, hn]
  | case5 => cases hn

theorem same_readCreators {names : List Name} (hn : readCreators c = .ok (names, n)) (hk : n ≤ k) :
    readCreators d = .ok (names, n) := by
  fun_induction readCreators c generalizing k d names n with
  | case1 c hname hpos hcomma hnext rest m hrest ih =>
    cases hn
    have hafter := h.next (by omega)
    have hsecond := h.drop (show 2 ≤ k by omega)
    rw [readCreators, dif_pos (h.atIdentifier.trans hname), hafter.atSymbol, if_pos hcomma,
      hsecond.atIdentifier, if_pos hnext, ih hsecond hrest (by omega), h.peek (by omega)]
  | case2 => cases hn
  | case3 => cases hn
  | case4 c hname hpos hcomma =>
    cases hn
    rw [readCreators, dif_pos (h.atIdentifier.trans hname), (h.next (by omega)).atSymbol,
      if_neg hcomma, h.peek (by omega)]
  | case5 c hname =>
    rw [readCreators, dif_neg (by rwa [h.atIdentifier]), hn]

theorem same_readNameClause {readList : Cursor → Except SyntaxError (List Name × Nat)}
    (hlist : ∀ {k n : Nat} {c d : Cursor} {names : List Name}, Fork left right k c d →
      readList c = .ok (names, n) → n ≤ k → readList d = .ok (names, n))
    {names : Taken (List Name)} (hn : readNameClause readList c = .ok names)
    (hk : names.taken ≤ k) : readNameClause readList d = .ok names := by
  obtain ⟨⟨list, m⟩, hm, hn⟩ := exists_of_bind_eq_ok hn
  have hsum : 1 + (readClients c.next).2 + m = names.taken :=
    congrArg Taken.taken (Except.ok.inj hn)
  have hlist' : readList (c.drop (1 + (readClients c.next).2)) = .ok (list, m) := hm
  have hclients := (h.next (by omega)).same_readClients (by omega)
  have hm' := hlist (h.drop (by omega)) hlist' (by omega)
  rw [← hn]
  unfold readNameClause
  simp only [hclients, hm', bind, Except.bind]
  rfl

theorem same_conversionLength (hpos : 0 < k) : conversionLength d = conversionLength c := by
  have hsame : ∀ front : List Item, (front ++ right).takeWhile
      (fun i => !i.token.isKeyword boundaryKeywords) = (front ++ left).takeWhile
      fun i => !i.token.isKeyword boundaryKeywords := by
    intro front
    obtain ⟨i, is, rfl, hi⟩ := h.left_end
    obtain ⟨j, js, rfl, hj⟩ := h.right_note
    simp [List.takeWhile_append, Token.isKeyword, hi, hj, boundaryKeywords]
  obtain ⟨front, -, hc, hd⟩ := (h.next hpos).split
  rw [conversionLength, conversionLength, hc, hd, hsame]

theorem same_classNoteLength (hk : classNoteLength c < k) :
    classNoteLength d = classNoteLength c := by
  unfold classNoteLength at hk ⊢
  dsimp only at hk ⊢
  rw [(h.next (by omega)).takeWhile (by omega)]

theorem same_readInvariant (hk : (readInvariant c).taken ≤ k) :
    readInvariant d = readInvariant c := by
  have hblock := h.same_readBlock (g := .classInvariant) (by decide) hk (.inl (by decide))
  simp only [readInvariant, hblock]

theorem same_readFeatureClause (hclean : (readFeatureClause c).errors = [])
    (hk : (readFeatureClause c).taken ≤ k)
    (hask : k ∉ (featureNoteSites (c.drop (1 + (readClients c.next).2))).map
      (1 + (readClients c.next).2 + ·)) :
    readFeatureClause d = readFeatureClause c := by
  have hsum : 1 + (readClients c.next).2 +
      (readFeatures (c.drop (1 + (readClients c.next).2))).taken ≤ k := hk
  have hclients := (h.next (by omega)).same_readClients (by omega)
  rw [mem_map_add_iff (by omega)] at hask
  have hinner : (readFeatures (c.drop (1 + (readClients c.next).2))).errors = [] := hclean
  have hfeatures := (h.drop (by omega)).same_readFeatures hinner (by omega) hask
  simp only [readFeatureClause, hclients, hfeatures, h.peek (show 0 < k by omega),
    h.last? (show 1 + (readClients c.next).2 ≤ k by omega)]

/-- **A part within the fork is read the same**, unless it asks for a note there or is one. -/
theorem same_readPart {i : Item} {is js : List Item} (hc : c.items = i :: is)
    (hclean : (readPart i is c).errors = []) (hk : (readPart i is c).taken ≤ k)
    (hask : k ∉ partNoteSites i c)
    (hnote : i.token.isKeyword [.kwNote] = false ∨ (readPart i is c).taken < k) :
    readPart i js d = readPart i is c := by
  have hpos : 0 < k := Nat.lt_of_lt_of_le (readPart_taken_pos hc) hk
  generalize hr : readPart i is c = r at hclean hk hnote
  have hread := readPart_cases hr
  refine PartReading.readPart_eq ?_
  cases hread with
  | parents hi hnames =>
    exact .parents hi (h.same_readNameClause (fun h => h.same_readParents) hnames hk)
  | creators hi hnames =>
    exact .creators hi (h.same_readNameClause (fun h => h.same_readCreators) hnames hk)
  | faultyParents | faultyCreators | unexpected => cases hclean
  | conversion hi => exact h.same_conversionLength hpos ▸ .conversion hi
  | features hi =>
    rw [partNoteSites, if_pos hi] at hask
    exact h.same_readFeatureClause hclean hk hask ▸ .features hi
  | invariant hi => exact h.same_readInvariant hk ▸ .invariant hi
  | note hi =>
    have hlt := hnote.resolve_left (by rw [hi]; decide)
    exact h.same_classNoteLength hlt ▸ .note hi
  | loose hi =>
    have hfeature : ¬ i.token.isKeyword [.kwFeature] = true := by
      rw [Token.isKeyword_eq_false_of_mem (not_boundary_of_startsDeclaration hi) (by decide)]
      exact Bool.false_ne_true
    rw [partNoteSites, if_neg hfeature, if_pos hi] at hask
    have hsame : readLooseFeatures d = readLooseFeatures c := by
      simp only [readLooseFeatures, h.same_readFeatures hclean hk hask, h.peek hpos]
    exact hsame ▸ .loose hi

/-- Where a part asks for a note of a feature at the fork, the note of `d` is its fault. -/
theorem mem_errors_readPart {i : Item} {js : List Item} {e : SyntaxError}
    (hask : k ∈ partNoteSites i c) (he : noteLength (d.drop k) = .error e) :
    e ∈ (readPart i js d).errors := by
  unfold partNoteSites at hask
  split at hask
  · rename_i hfeature
    have hpart : (readPart i js d).errors =
        (readFeatures (d.drop (1 + (readClients d.next).2))).errors :=
      congrArg Recovered.errors (PartReading.features hfeature).readPart_eq
    obtain ⟨m, hm, hsum⟩ := List.mem_map.mp hask
    have hclients := (h.next (by omega)).same_readClients (by omega)
    rw [hpart, hclients]
    refine (h.drop (by omega)).mem_errors_readFeatures ((mem_map_add_iff (by omega)).mp hask) ?_
    rw [← Cursor.drop_add, Nat.add_sub_cancel' (by omega)]
    exact he
  split at hask
  · rename_i hstarts
    have hpart : (readPart i js d).errors = (readFeatures d).errors :=
      congrArg Recovered.errors (PartReading.loose hstarts).readPart_eq
    rw [hpart]
    exact h.mem_errors_readFeatures hask he
  · cases hask

end Fork

end ContractLint
