/-
# What a cursor sees at a form

The readers decide everything by looking at the next item or two.  Where a form stands at the
cursor, the next item is a leaf of known kind, or it is the first of whatever follows the form.  The
first case is a matter of evaluation, and the lemmas on leaves are tagged for it.

For the second case `Heads ks is` says that what follows is nothing, or starts with an item of one
of the kinds `ks`.  It is all that is ever asked of the rest of a text: a test that every kind of
`ks` fails, fails there, and so an optional part that is missing is not found in what follows.
-/
import ContractLint.Proofs.Form

namespace ContractLint

/-! ## 1. Tokens and leaves -/

namespace Token

/-- A token that is one of some keywords is none of others. -/
theorem isKeyword_of_disjoint {t : Token} {vs ws : List Keyword} (h : t.isKeyword vs = true)
    (hdisjoint : ∀ w ∈ vs, w ∉ ws) : t.isKeyword ws = false := by
  unfold isKeyword at h ⊢
  split at h
  · rename_i w _
    have hw := hdisjoint w (List.contains_iff_mem.mp h)
    simpa using hw
  · cases h

theorem isKeyword_mono {t : Token} {vs ws : List Keyword} (h : t.isKeyword vs = true)
    (hsubset : ∀ w ∈ vs, w ∈ ws) : t.isKeyword ws = true := by
  unfold isKeyword at h ⊢
  split at h
  · rename_i w _
    exact List.contains_iff_mem.mpr (hsubset w (List.contains_iff_mem.mp h))
  · cases h

/-- A token that is the keyword `v` is one of some keywords if `v` is. -/
theorem isKeyword_eq_contains {t : Token} {v : Keyword} (h : t.isKeyword [v] = true)
    (ws : List Keyword) : t.isKeyword ws = ws.contains v := by
  unfold isKeyword at h ⊢
  split at h
  · obtain rfl := List.mem_singleton.mp (List.contains_iff_mem.mp h)
    rfl
  · cases h

theorem isKeyword_eq_false_of_mem {t : Token} {w : Keyword} {ws : List Keyword}
    (h : t.isKeyword ws = false) (hw : w ∈ ws) : t.isKeyword [w] = false := by
  refine Bool.eq_false_iff.mpr fun hword => ?_
  rw [isKeyword_eq_contains hword, List.contains_iff_mem.mpr hw] at h
  cases h

theorem isKeyword_of_isSymbol {t : Token} {ss : List Symbol} (h : t.isSymbol ss = true)
    (ws : List Keyword) : t.isKeyword ws = false := by
  unfold isSymbol at h
  unfold isKeyword
  split at h
  · rename_i hkind
    rw [hkind]
  · cases h

theorem isKeyword_of_kind {t : Token} {k : Kind} (h : (t.kind == k) = true)
    (hk : ∀ w, k ≠ .keyword w) (ws : List Keyword) : t.isKeyword ws = false := by
  unfold isKeyword
  split
  · rename_i w hkind
    exact absurd ((eq_of_beq h).symm.trans hkind) (hk w)
  · rfl

end Token

namespace Leaf

theorem kind_eq {k : Kind} (l : Leaf [k]) : l.item.token.kind = k :=
  List.mem_singleton.mp l.kind_mem

theorem kind_or {j k : Kind} (l : Leaf [j, k]) :
    l.item.token.kind = j ∨ l.item.token.kind = k := by
  simpa using l.kind_mem

@[simp] theorem isKeyword_word {w : Keyword} (l : Word w) (ws : List Keyword) :
    l.item.token.isKeyword ws = ws.contains w := by
  simp only [Token.isKeyword, l.kind_eq]

@[simp] theorem isKeyword_mark {s : Symbol} (l : Mark s) (ws : List Keyword) :
    l.item.token.isKeyword ws = false := by
  simp only [Token.isKeyword, l.kind_eq]

@[simp] theorem isSymbol_mark {s : Symbol} (l : Mark s) (ss : List Symbol) :
    l.item.token.isSymbol ss = ss.contains s := by
  simp only [Token.isSymbol, l.kind_eq]

@[simp] theorem isKeyword_identifier (l : Identifier) (ws : List Keyword) :
    l.item.token.isKeyword ws = false := by
  simp only [Token.isKeyword, l.kind_eq]

@[simp] theorem isIdentifier_identifier (l : Identifier) :
    l.item.token.isIdentifier = true := by
  simp [Token.isIdentifier, l.kind_eq]

end Leaf

/-! ## 2. Cursors at given items -/

namespace Cursor

variable (i : Item) (is xs ys : List Item) (e : Token)

@[simp] theorem atKeyword_cons (ws : List Keyword) :
    (⟨i :: is, e⟩ : Cursor).atKeyword ws = i.token.isKeyword ws := rfl

@[simp] theorem atSymbol_cons (ss : List Symbol) :
    (⟨i :: is, e⟩ : Cursor).atSymbol ss = i.token.isSymbol ss := rfl

@[simp] theorem atIdentifier_cons :
    (⟨i :: is, e⟩ : Cursor).atIdentifier = i.token.isIdentifier := rfl

@[simp] theorem peek_cons : (⟨i :: is, e⟩ : Cursor).peek = i.token := rfl

@[simp] theorem next_cons : (⟨i :: is, e⟩ : Cursor).next = ⟨is, e⟩ := rfl

@[simp] theorem drop_zero (c : Cursor) : c.drop 0 = c := rfl

@[simp] theorem drop_one_cons : (⟨i :: is, e⟩ : Cursor).drop 1 = ⟨is, e⟩ := rfl

@[simp] theorem drop_append : (⟨xs ++ ys, e⟩ : Cursor).drop xs.length = ⟨ys, e⟩ := by
  simp [drop]

@[simp] theorem take_append :
    (⟨xs ++ ys, e⟩ : Cursor).take xs.length = xs.map Item.token := by
  simp [take]

@[simp] theorem last?_append : (⟨xs ++ ys, e⟩ : Cursor).last? xs.length = xs.getLast? := by
  simp [last?]

theorem peek_append (h : xs ≠ []) : (⟨xs ++ ys, e⟩ : Cursor).peek = (xs.head h).token := by
  cases xs with
  | nil => exact absurd rfl h
  | cons x xs => rfl

/-- A cursor at the keyword `v` is at one of some keywords if `v` is one. -/
theorem atKeyword_eq_contains {c : Cursor} {v : Keyword} (h : c.atKeyword [v] = true)
    (ws : List Keyword) : c.atKeyword ws = ws.contains v := by
  unfold atKeyword test at h ⊢
  cases hc : c.items.head? with
  | none => simp [hc] at h
  | some i =>
    rw [hc] at h
    exact Token.isKeyword_eq_contains h ws

/-- A test fails at a run of items that may be empty if it fails at its first item and behind it. -/
theorem test_append {p : Token → Bool} {xs ys : List Item} {e : Token}
    (hxs : ∀ i ∈ xs.head?, p i.token = false) (hys : (⟨ys, e⟩ : Cursor).test p = false) :
    (⟨xs ++ ys, e⟩ : Cursor).test p = false := by
  cases xs with
  | nil => exact hys
  | cons x xs => exact hxs x rfl

end Cursor

/-! ## 3. What follows -/

/-- Of the token that follows, nesting depends only on whether it is a string. -/
theorem Nesting.feed_congr (n : Nesting) (t : Token) {next next' : Option Token}
    (h : isManifest next = isManifest next') : n.feed t next = n.feed t next' := by
  simp only [feed, feedKeyword, h]

/-- The items `is` are none, or start with one of a kind in `ks`. -/
def Heads (ks : List Kind) (is : List Item) : Prop :=
  ∀ i ∈ is.head?, i.token.kind ∈ ks

namespace Heads

variable {ks ls : List Kind} {is rest : List Item} {e : Token} {α : Type}

theorem leaf (l : Leaf ks) (is : List Item) : Heads ks (l.item :: is) := by
  intro i hi
  rw [← Option.some.inj hi]
  exact l.kind_mem

theorem mono (h : Heads ks is) (hks : ∀ k ∈ ks, k ∈ ls) : Heads ls is :=
  fun i hi => hks _ (h i hi)

theorem opt {items : α → List Item} {part : Option α} (hpart : ∀ a, Heads ks (items a ++ rest))
    (hrest : Heads ks rest) : Heads ks (optItems items part ++ rest) := by
  cases part with
  | none => exact hrest
  | some a => exact hpart a

theorem flatMap {items : α → List Item} (hparts : ∀ a rest, Heads ks (items a ++ rest))
    (hrest : Heads ks rest) : ∀ parts : List α, Heads ks (parts.flatMap items ++ rest)
  | [] => hrest
  | a :: parts => by
    rw [List.flatMap_cons, List.append_assoc]
    exact hparts a _

/-- What follows passes a test for keywords that all of its kinds are. -/
theorem isKeyword {ws : List Keyword} {i : Item} (h : Heads ks is) (hi : i ∈ is.head?)
    (hws : ∀ k ∈ ks, k ∈ ws.map Kind.keyword) : i.token.isKeyword ws = true := by
  obtain ⟨w, hw, hkind⟩ := List.mem_map.mp (hws _ (h i hi))
  simpa [Token.isKeyword, ← hkind] using hw

/-- What follows passes no test that all of its kinds fail. -/
theorem test_eq_false {p : Token → Bool} (h : Heads ks is)
    (hp : ∀ t : Token, t.kind ∈ ks → p t = false) : (⟨is, e⟩ : Cursor).test p = false := by
  cases is with
  | nil => rfl
  | cons i is => exact hp _ (h i rfl)

theorem atKeyword {ws : List Keyword} (h : Heads ks is) (hws : ∀ w ∈ ws, Kind.keyword w ∉ ks) :
    (⟨is, e⟩ : Cursor).atKeyword ws = false := by
  refine h.test_eq_false fun t ht => ?_
  unfold Token.isKeyword
  split
  · rename_i w hw
    rw [hw] at ht
    simpa using fun hmem => hws w hmem ht
  · rfl

theorem atSymbol {ss : List Symbol} (h : Heads ks is) (hss : ∀ s ∈ ss, Kind.operator s ∉ ks) :
    (⟨is, e⟩ : Cursor).atSymbol ss = false := by
  refine h.test_eq_false fun t ht => ?_
  unfold Token.isSymbol
  split
  · rename_i s hs
    rw [hs] at ht
    simpa using fun hmem => hss s hmem ht
  · rfl

theorem atIdentifier (h : Heads ks is) (hk : Kind.identifier ∉ ks) :
    (⟨is, e⟩ : Cursor).atIdentifier = false := by
  refine h.test_eq_false fun t ht => ?_
  have hne : t.kind ≠ .identifier := fun heq => hk (heq ▸ ht)
  simpa [Token.isIdentifier] using hne

theorem atString (h : Heads ks is) (hk : Kind.string ∉ ks) :
    (⟨is, e⟩ : Cursor).atString = false := by
  refine h.test_eq_false fun t ht => ?_
  have hne : t.kind ≠ .string := fun heq => hk (heq ▸ ht)
  simpa [Token.isString] using hne

theorem optKeyword {w : Keyword} (part : Option (Word w)) (h : Heads ks rest)
    (hw : Kind.keyword w ∉ ks) :
    (⟨optItems Leaf.items part ++ rest, e⟩ : Cursor).optKeyword [w] =
      (optItems Leaf.items part).length := by
  cases part with
  | none =>
    have h : (⟨rest, e⟩ : Cursor).atKeyword [w] = false := h.atKeyword (by simpa using hw)
    simp [optItems, Cursor.optKeyword, h]
  | some l => simp [optItems, Leaf.items, Cursor.optKeyword]

theorem optSymbol {s : Symbol} (part : Option (Mark s)) (h : Heads ks rest)
    (hs : Kind.operator s ∉ ks) :
    (⟨optItems Leaf.items part ++ rest, e⟩ : Cursor).optSymbol [s] =
      (optItems Leaf.items part).length := by
  cases part with
  | none =>
    have h : (⟨rest, e⟩ : Cursor).atSymbol [s] = false := h.atSymbol (by simpa using hs)
    simp [optItems, Cursor.optSymbol, h]
  | some l => simp [optItems, Leaf.items, Cursor.optSymbol]

end Heads

/-! ## 4. One turn of the loops -/

section Turn

variable {c : Cursor} {i : Item} {is : List Item}

/-- **A case of `BodyReading` decides** what the body reads as. -/
theorem BodyReading.readBody_eq {body : Taken Body} (h : BodyReading c body) :
    readBody c = .ok body := by
  unfold readBody
  cases h with
  | instructions hat | attributive hat | deferred hat => simp [Cursor.atKeyword_eq_contains hat]
  | once hat hkeys | external hat hn => simp [Cursor.atKeyword_eq_contains hat, *]

/-- Declarations end at a boundary and at the end of the text. -/
theorem readFeatures_of_boundary
    (h : ∀ i ∈ c.items.head?, i.token.isKeyword boundaryKeywords = true) :
    readFeatures c = ⟨[], 0, [], []⟩ := by
  rw [readFeatures]
  split
  · rfl
  · rename_i i is hc
    have hi : i.token.isKeyword boundaryKeywords = true := h i (by rw [hc]; rfl)
    rw [if_pos hi]

/-- A declaration that is read adds its features and its errors. -/
theorem readFeatures_of_ok {d : Taken Declaration} (hc : c.items = i :: is)
    (hi : i.token.isKeyword boundaryKeywords = false) (hd : readDeclaration i c = .ok d) :
    readFeatures c =
      ⟨d.value.features ++ (readFeatures (c.drop d.taken)).value,
        d.taken + (readFeatures (c.drop d.taken)).taken,
        d.value.errors ++ (readFeatures (c.drop d.taken)).errors,
        (readFeatures (c.drop d.taken)).resumed⟩ := by
  rw [readFeatures]
  split
  · simp_all
  · rename_i j js hj
    obtain ⟨rfl, rfl⟩ : i = j ∧ is = js := by simpa [hc] using hj
    simp only [hi, hd, Bool.false_eq_true, if_false]

/-- A declaration that cannot be read costs one error, and reading resumes behind it. -/
theorem readFeatures_of_error {e : SyntaxError} {n : Nat} (hc : c.items = i :: is)
    (hi : i.token.isKeyword boundaryKeywords = false) (he : readDeclaration i c = .error e)
    (hn : passLength (some i.token.column) i is = n) :
    readFeatures c =
      ⟨(readFeatures (c.drop n)).value, n + (readFeatures (c.drop n)).taken,
        e :: (readFeatures (c.drop n)).errors,
        (c.drop n).peek :: (readFeatures (c.drop n)).resumed⟩ := by
  rw [readFeatures]
  split
  · simp_all
  · rename_i j js hj
    obtain ⟨rfl, rfl⟩ : i = j ∧ is = js := by simpa [hc] using hj
    simp only [hi, he, hn, Bool.false_eq_true, if_false]

/-- **A case of `PartReading` decides** what the part reads as. -/
theorem PartReading.readPart_eq {r : Recovered Part} (h : PartReading i is c r) :
    readPart i is c = r := by
  unfold readPart
  cases h with
  | parents hi hnames | faultyParents hi he | creators hi hnames | faultyCreators hi he =>
    simp [Token.isKeyword_eq_contains hi, *]
  | conversion hi | features hi | invariant hi | note hi => simp [Token.isKeyword_eq_contains hi]
  | loose hi =>
    have hboundary := not_boundary_of_startsDeclaration hi
    simp (disch := decide) [Token.isKeyword_eq_false_of_mem hboundary, hi]
  | unexpected hi hloose =>
    simp (disch := decide) [Token.isKeyword_eq_false_of_mem hi, hloose]

/-- Parts end at the `end` of the class. -/
theorem readParts_of_end (hc : c.items = i :: is) (hi : i.token.isKeyword [.kwEnd] = true) :
    readParts c = ⟨[], 0, [], []⟩ := by
  rw [readParts]
  split
  · rfl
  · rename_i j js hj
    obtain ⟨rfl, rfl⟩ : i = j ∧ is = js := by simpa [hc] using hj
    rw [if_pos hi]

/-- A part that is read comes before those behind it. -/
theorem readParts_of_cons (hc : c.items = i :: is) (hi : i.token.isKeyword [.kwEnd] = false) :
    let part := readPart i is c
    readParts c =
      ⟨part.value :: (readParts (c.drop part.taken)).value,
        part.taken + (readParts (c.drop part.taken)).taken,
        part.errors ++ (readParts (c.drop part.taken)).errors,
        part.resumed ++ (readParts (c.drop part.taken)).resumed⟩ := by
  intro part
  rw [readParts]
  split
  · simp_all
  · rename_i j js hj
    obtain ⟨rfl, rfl⟩ : i = j ∧ is = js := by simpa [hc] using hj
    simp only [hi, Bool.false_eq_true, if_false, part]

end Turn

end ContractLint
