/-
# Quantifications in expressions

A quantification `∀ c: domain ¦ body` is read at its symbol: the cursor and the colon stand right
behind it, and the broken bar is looked for up to the next quantifier symbol.  The bars of other
quantifications stand behind the symbols of those or inside brackets, so no bar is taken for the bar
of another one.  But the search also gives up at a symbol in brackets, where the bar it is after can
still follow: a quantification whose domain holds another one, in brackets, is read without its bar.

`Expression` is the grammar of atoms, brackets and quantifications, with the quantifications in the
order of their symbols.

* `Expression.hasBarFrom_append`, `Expression.constructs_append`: what both searches do over an
  expression, whatever follows it;
* `exists_statement_of_line`: what stands on one line stands in one statement;
* `check_eq_flatMap_spans`: the findings of the rule are those of the spans that were searched;
* `quantifications_judged`: of the quantifications of an expression, exactly those with another one
  in the domain are reported;
* `bar_overlooked`: one of them has its bar.
-/
import ContractLint.Proofs.Splitting
import ContractLint.Rule.Quantifier

namespace ContractLint

/-! ## 1. Expressions -/

/-- Whether a token stands for itself in an expression: it is no round or square bracket, no part of
a quantification and no agent. -/
def isAtom (t : Token) : Bool :=
  !t.isKeyword [.kwAgent] &&
    !t.isSymbol [.openParen, .closeParen, .openBracket, .closeBracket, .forAll, .thereExists,
      .brokenBar]

/-- The round brackets, or the square ones. -/
def IsPair (opening closing : Token) : Prop :=
  opening.isSymbol [.openParen] = true ∧ closing.isSymbol [.closeParen] = true ∨
    opening.isSymbol [.openBracket] = true ∧ closing.isSymbol [.closeBracket] = true

/-- A quantification as it is written. -/
structure Quantification where
  quantity : Quantity
  symbol : Token
  cursor : Token
  domain : List Token

namespace Quantification

/-- Whether there is a quantification in the domain. -/
def isNested (q : Quantification) : Bool :=
  q.domain.any (·.quantity?.isSome)

/-- What is read of the quantification. -/
def quantifier (q : Quantification) : Quantifier where
  location := q.symbol.location
  quantity := q.quantity
  cursor := some q.cursor.name
  hasColon := true
  hasBar := !q.isNested

theorem isWellFormed_quantifier (q : Quantification) :
    q.quantifier.isWellFormed = !q.isNested := rfl

end Quantification

/-- Where an expression stands: as the domain of a quantification, it has quantifications in
brackets only. -/
inductive Scope where
  | free
  | domain

/-- `Expression scope ts qs`: the tokens `ts` are an expression, and `qs` are its quantifications in
the order of their symbols. -/
inductive Expression : Scope → List Token → List Quantification → Prop
  | nil (scope : Scope) : Expression scope [] []
  | atom {scope : Scope} {t : Token} {ts : List Token} {qs : List Quantification}
      (ht : isAtom t = true) (rest : Expression scope ts qs) : Expression scope (t :: ts) qs
  | brackets {scope : Scope} {opening closing : Token} {ts us : List Token}
      {qs rs : List Quantification} (hpair : IsPair opening closing)
      (inside : Expression .free ts qs) (rest : Expression scope us rs) :
      Expression scope (opening :: (ts ++ closing :: us)) (qs ++ rs)
  /-- The body is all of the expression behind the bar. -/
  | quantification {q : Quantification} {colon bar : Token} {ts : List Token}
      {qs rs : List Quantification} (hsymbol : q.symbol.quantity? = some q.quantity)
      (hcursor : q.cursor.isIdentifier = true) (hcolon : colon.isSymbol [.colon] = true)
      (hbar : bar.isSymbol [.brokenBar] = true) (domain : Expression .domain q.domain qs)
      (body : Expression .free ts rs) :
      Expression .free (q.symbol :: q.cursor :: colon :: (q.domain ++ bar :: ts)) (q :: (qs ++ rs))

/-! ## 2. What the tokens are -/

/-- A symbol of a longer list is missing where a shorter one is. -/
theorem isSymbol_of_subset {t : Token} {ss ss' : List Symbol} (h : t.isSymbol ss' = false)
    (hsubset : ss ⊆ ss') : t.isSymbol ss = false := by
  unfold Token.isSymbol at h ⊢
  split
  · rename_i s hkind
    rw [hkind] at h
    dsimp only at h
    rw [← Bool.not_eq_true, List.contains_iff_mem] at h ⊢
    exact fun hmem => h (hsubset hmem)
  · rfl

/-- The two quantifier symbols. -/
theorem isSymbol_iff_quantity? {t : Token} :
    t.isSymbol [.forAll, .thereExists] = t.quantity?.isSome := by
  unfold Token.isSymbol Token.quantity?
  cases t.kind with
  | operator s => cases s <;> rfl
  | _ => rfl

section

variable {t : Token} {ts : List Token}

/-- The search of a span goes on behind a token that begins nothing. -/
theorem constructs_cons (hagent : t.isKeyword [.kwAgent] = false) (hquantity : t.quantity? = none) :
    constructs (t :: ts) = constructs ts := by
  rw [constructs, hagent, if_neg Bool.false_ne_true, hquantity]

theorem constructs_quantity {q : Quantity} (h : t.quantity? = some q) :
    constructs (t :: ts) = .quantifier (readQuantifier q t.location ts) :: constructs ts := by
  have hagent : t.isKeyword [.kwAgent] = false := by
    unfold Token.quantity? at h
    split at h
    · rename_i s hkind
      simp [Token.isKeyword, hkind]
    · cases h
  rw [constructs, hagent, if_neg Bool.false_ne_true, h]

theorem constructs_operator {s : Symbol} (h : t.kind = .operator s)
    (hs : Quantity.ofSymbol? s = none) : constructs (t :: ts) = constructs ts := by
  refine constructs_cons ?_ ?_
  · simp [Token.isKeyword, h]
  · rw [Token.quantity?, h]
    exact hs

theorem isSymbol_of_isAtom (h : isAtom t = true) {ss : List Symbol}
    (hss : ss ⊆ [.openParen, .closeParen, .openBracket, .closeBracket, .forAll, .thereExists,
      .brokenBar]) : t.isSymbol ss = false := by
  unfold isAtom at h
  rw [Bool.and_eq_true, Bool.not_eq_true', Bool.not_eq_true'] at h
  exact isSymbol_of_subset h.2 hss

theorem quantity?_of_isAtom (h : isAtom t = true) : t.quantity? = none := by
  have hsymbol : t.isSymbol [.forAll, .thereExists] = false := isSymbol_of_isAtom h (by decide)
  rwa [isSymbol_iff_quantity?, Option.isSome_eq_false_iff, Option.isNone_iff_eq_none] at hsymbol

theorem constructs_of_isAtom (h : isAtom t = true) : constructs (t :: ts) = constructs ts := by
  refine constructs_cons ?_ (quantity?_of_isAtom h)
  unfold isAtom at h
  rw [Bool.and_eq_true, Bool.not_eq_true'] at h
  exact h.1

/-- The search for a bar goes on behind an atom. -/
theorem hasBarFrom_of_isAtom (h : isAtom t = true) (depth : Nat) :
    hasBarFrom depth (t :: ts) = hasBarFrom depth ts := by
  rw [hasBarFrom, isSymbol_of_isAtom h (by decide), isSymbol_of_isAtom h (by decide),
    isSymbol_of_isAtom h (by decide), isSymbol_of_isAtom h (by decide)]
  simp

end

namespace IsPair

variable {opening closing : Token} {ts : List Token}

theorem quantity? (h : IsPair opening closing) :
    opening.quantity? = none ∧ closing.quantity? = none := by
  rcases h with ⟨ho, hc⟩ | ⟨ho, hc⟩ <;>
    simp [Token.quantity?, kind_of_isSymbol ho, kind_of_isSymbol hc, Quantity.ofSymbol?]

theorem constructs_opening (h : IsPair opening closing) :
    constructs (opening :: ts) = constructs ts := by
  rcases h with ⟨ho, -⟩ | ⟨ho, -⟩ <;> exact constructs_operator (kind_of_isSymbol ho) rfl

theorem constructs_closing (h : IsPair opening closing) :
    constructs (closing :: ts) = constructs ts := by
  rcases h with ⟨-, hc⟩ | ⟨-, hc⟩ <;> exact constructs_operator (kind_of_isSymbol hc) rfl

theorem hasBarFrom_opening (h : IsPair opening closing) (depth : Nat) :
    hasBarFrom depth (opening :: ts) = hasBarFrom (depth + 1) ts := by
  rcases h with ⟨ho, -⟩ | ⟨ho, -⟩ <;>
    simp [hasBarFrom, Token.isSymbol, kind_of_isSymbol ho]

theorem hasBarFrom_closing (h : IsPair opening closing) (depth : Nat) :
    hasBarFrom (depth + 1) (closing :: ts) = hasBarFrom depth ts := by
  rcases h with ⟨-, hc⟩ | ⟨-, hc⟩ <;>
    simp [hasBarFrom, Token.isSymbol, kind_of_isSymbol hc]

end IsPair

/-! ## 3. The searches over an expression -/

theorem isEmpty_append {α : Type} (as bs : List α) :
    (as ++ bs).isEmpty = (as.isEmpty && bs.isEmpty) := by
  cases as <;> rfl

namespace Expression

variable {scope : Scope} {ts : List Token} {qs : List Quantification}

/-- An expression has quantifier symbols if it has quantifications. -/
theorem any_quantity? (h : Expression scope ts qs) :
    ts.any (·.quantity?.isSome) = !qs.isEmpty := by
  induction h with
  | nil => rfl
  | atom ht _ ih => rw [List.any_cons, quantity?_of_isAtom ht, ih]; rfl
  | brackets hpair _ _ ihin ihrest =>
    rw [List.any_cons, List.any_append, List.any_cons, hpair.quantity?.1, hpair.quantity?.2, ihin,
      ihrest, isEmpty_append, Bool.not_and]
    rfl
  | quantification hsymbol => rw [List.any_cons, hsymbol]; rfl

/-- **The search for a bar passes over an expression without quantifications**, and gives up inside
of one with any.  So it never takes a bar of the expression. -/
theorem hasBarFrom_append (h : Expression scope ts qs) (depth : Nat) (rest : List Token) :
    hasBarFrom depth (ts ++ rest) = (qs.isEmpty && hasBarFrom depth rest) := by
  induction h generalizing depth rest with
  | nil => rfl
  | atom ht _ ih => rw [List.cons_append, hasBarFrom_of_isAtom ht, ih]
  | @brackets scope opening closing ts us qs rs hpair _ _ ihin ihrest =>
    rw [List.cons_append, hpair.hasBarFrom_opening, List.append_assoc, ihin, List.cons_append,
      hpair.hasBarFrom_closing, ihrest, isEmpty_append, Bool.and_assoc]
  | quantification hsymbol =>
    rw [List.cons_append, hasBarFrom, isSymbol_iff_quantity?, hsymbol]
    rfl

/-- **Each quantification is read at its symbol**: without its bar if there is one in its domain. -/
theorem constructs_append (h : Expression scope ts qs) (rest : List Token) :
    constructs (ts ++ rest) =
      qs.map (fun q => .quantifier q.quantifier) ++ constructs rest := by
  induction h generalizing rest with
  | nil => rfl
  | atom ht _ ih => rw [List.cons_append, constructs_of_isAtom ht, ih]
  | @brackets scope opening closing ts us qs rs hpair _ _ ihin ihrest =>
    rw [List.cons_append, hpair.constructs_opening, List.append_assoc, ihin, List.cons_append,
      hpair.constructs_closing, ihrest, List.map_append, List.append_assoc]
  | @quantification q colon bar ts qs rs hsymbol hcursor hcolon hbar hdomain _ ihdomain ihbody =>
    have hcolonKind := kind_of_isSymbol hcolon
    have hbarKind := kind_of_isSymbol hbar
    have hcursorKind : q.cursor.kind = .identifier := by simpa [Token.isIdentifier] using hcursor
    -- the search starts at the colon, and finds the bar behind a domain without quantifications
    have hfound : hasBarFrom 0 (colon :: (q.domain ++ bar :: (ts ++ rest))) = !q.isNested := by
      rw [Quantification.isNested, hdomain.any_quantity?, Bool.not_not]
      have hpass : hasBarFrom 0 (colon :: (q.domain ++ bar :: (ts ++ rest))) =
          hasBarFrom 0 (q.domain ++ bar :: (ts ++ rest)) := by
        simp [hasBarFrom, Token.isSymbol, hcolonKind]
      have htaken : hasBarFrom 0 (bar :: (ts ++ rest)) = true := by
        simp [hasBarFrom, Token.isSymbol, hbarKind]
      rw [hpass, hdomain.hasBarFrom_append, htaken, Bool.and_true]
    have hread : readQuantifier q.quantity q.symbol.location
        (q.cursor :: colon :: (q.domain ++ bar :: (ts ++ rest))) = q.quantifier := by
      simp [readQuantifier, Quantification.quantifier, hcursor, hcolon, hfound]
    have hcursorSkip : ∀ us, constructs (q.cursor :: us) = constructs us := fun us =>
      constructs_cons (by simp [Token.isKeyword, hcursorKind])
        (by simp [Token.quantity?, hcursorKind])
    rw [List.cons_append, List.cons_append, List.cons_append, List.append_assoc, List.cons_append,
      constructs_quantity hsymbol, hread, hcursorSkip, constructs_operator hcolonKind rfl, ihdomain,
      constructs_operator hbarKind rfl, ihbody, List.map_cons, List.map_append, List.cons_append,
      List.append_assoc]

/-- The quantifiers of an expression are those of its quantifications. -/
theorem quantifiers_eq (h : Expression scope ts qs) :
    Construct.quantifiers (constructs ts) = qs.map Quantification.quantifier := by
  have hconstructs := h.constructs_append []
  rw [List.append_nil, show constructs [] = [] by rw [constructs], List.append_nil] at hconstructs
  rw [hconstructs, Construct.quantifiers, List.filterMap_map]
  exact congrFun List.filterMap_eq_map qs

end Expression

/-! ## 4. Expressions on one line -/

/-- A run of marks of which only the first may begin a group is part of one group, if it is not in
front of all of them. -/
theorem infix_of_grouped (begins : Bool) (t : Token) (ts : List Token)
    (after : List (Bool × Token)) : ∀ before : List (Bool × Token),
      let parts := grouped (before ++ (begins, t) :: (ts.map (false, ·) ++ after))
      t :: ts <:+: parts.1 ∨ ∃ g ∈ parts.2, t :: ts <:+: g
  | [] => by
    have htail : ∀ us : List Token, us <+: (grouped (us.map (false, ·) ++ after)).1 := by
      intro us
      induction us with
      | nil => exact List.nil_prefix
      | cons u us ih => exact List.cons_prefix_cons.mpr ⟨rfl, ih⟩
    have hrun := (List.cons_prefix_cons.mpr ⟨rfl, htail ts⟩ : t :: ts <+: t :: _).isInfix
    cases begins with
    | false => exact .inl hrun
    | true => exact .inr ⟨_, List.mem_cons_self, hrun⟩
  | (true, u) :: before => by
    rcases infix_of_grouped begins t ts after before with h | ⟨g, hg, h⟩
    · exact .inr ⟨_, List.mem_cons_self, List.infix_cons h⟩
    · exact .inr ⟨g, List.mem_cons_of_mem _ hg, h⟩
  | (false, u) :: before => by
    rcases infix_of_grouped begins t ts after before with h | ⟨g, hg, h⟩
    · exact .inl (List.infix_cons h)
    · exact .inr ⟨g, hg, h⟩

/-- Within a line nothing begins a statement but what follows a separator. -/
theorem marked_of_line {line : Int} (rest : List Token) : ∀ {ts : List Token} (n : Nesting)
    {p : Token}, p.line = line → isSeparator p = false →
    (∀ t ∈ ts, t.line = line ∧ isSeparator t = false ∧ t.isEof = false) →
    ∃ ms, marked n (some p) (ts ++ rest) = ts.map (false, ·) ++ ms
  | [], n, p, _, _, _ => ⟨marked n (some p) rest, rfl⟩
  | t :: ts, n, p, hp, hseparator, hts => by
    obtain ⟨⟨ht, htseparator, heof⟩, hts⟩ := List.forall_mem_cons.mp hts
    have hbegins : beginsStatement n (some p) t = false := by
      simp [beginsStatement, hseparator, hp, ht]
    obtain ⟨ms, hms⟩ := marked_of_line rest (n.feed t (ts ++ rest).head?) ht htseparator hts
    refine ⟨ms, ?_⟩
    rw [List.cons_append, marked, heof, if_neg Bool.false_ne_true, hbegins, hms]
    rfl

/-- In front of the end of the text, marking goes on behind what was marked. -/
theorem exists_marked_append (rest : List Token) : ∀ {ts : List Token} (n : Nesting)
    (prev : Option Token), (∀ t ∈ ts, t.isEof = false) →
    ∃ ms n' prev', marked n prev (ts ++ rest) = ms ++ marked n' prev' rest
  | [], n, prev, _ => ⟨[], n, prev, rfl⟩
  | t :: ts, n, prev, heof => by
    obtain ⟨ht, heof⟩ := List.forall_mem_cons.mp heof
    obtain ⟨ms, n', prev', hms⟩ :=
      exists_marked_append rest (n.feed t (ts ++ rest).head?) (some t) heof
    refine ⟨(beginsStatement n prev t, t) :: ms, n', prev', ?_⟩
    rw [List.cons_append, marked, ht, if_neg Bool.false_ne_true, hms]
    rfl

/-- **What stands on one line, without separators, is in one statement**, whatever stands around
it. -/
theorem exists_statement_of_line {before ts after : List Token} {line : Int} (hne : ts ≠ [])
    (heof : ∀ t ∈ before ++ (ts ++ after), t.isEof = false)
    (hline : ∀ t ∈ ts, t.line = line ∧ isSeparator t = false) :
    ∃ s ∈ statements (before ++ (ts ++ after)), ts <:+: s := by
  obtain ⟨t, us, rfl⟩ := List.exists_cons_of_ne_nil hne
  have hts : ∀ u ∈ t :: us, u.line = line ∧ isSeparator u = false ∧ u.isEof = false := fun u hu =>
    ⟨(hline u hu).1, (hline u hu).2,
      heof u (List.mem_append_right _ (List.mem_append_left _ hu))⟩
  obtain ⟨⟨ht, hseparator, htEof⟩, hus⟩ := List.forall_mem_cons.mp hts
  obtain ⟨ms, n, prev, hms⟩ := exists_marked_append (t :: us ++ after) {} none fun u hu =>
    heof u (List.mem_append_left _ hu)
  obtain ⟨behind, hbehind⟩ :=
    marked_of_line after (n.feed t (us ++ after).head?) ht hseparator hus
  have hmarks : marked {} none (before ++ (t :: us ++ after)) =
      ms ++ (beginsStatement n prev t, t) :: (us.map (false, ·) ++ behind) := by
    rw [hms, List.cons_append, marked, htEof, if_neg Bool.false_ne_true, hbehind]
  have hkept : (t :: us).filter (fun u => !isSeparator u && !u.isEof) = t :: us := by
    refine List.filter_eq_self.mpr fun u hu => ?_
    rw [(hts u hu).2.1, (hts u hu).2.2]
    rfl
  rcases infix_of_grouped (beginsStatement n prev t) t us behind ms with h | ⟨g, hg, h⟩
  · -- only separators stand in front of the first statement
    rw [← hmarks] at h
    have hdropped := isSeparator_of_mem_grouped heof (fun p hp => by cases hp) t
      (h.subset List.mem_cons_self)
    rw [hseparator] at hdropped
    cases hdropped
  · rw [← hmarks] at hg
    refine ⟨_, List.mem_map_of_mem hg, ?_⟩
    rw [← hkept]
    exact h.filter _

/-! ## 5. The findings of a text -/

/-- The spans of a tree that were searched. -/
def Tree.spans (t : Tree) : List (List Token) :=
  t.classes.flatMap fun c =>
    c.features.flatMap Feature.spans ++ c.invariant.toList.flatMap (·.block.expressions)

theorem Construct.quantifiers_flatMap {α : Type} (as : List α) (f : α → List Construct) :
    quantifiers (as.flatMap f) = as.flatMap fun a => quantifiers (f a) :=
  List.filterMap_flatMap

/-- An invariant with the quantifiers of its own expressions. -/
def Invariant.Searched (i : Invariant) : Prop :=
  i.quantifiers = Construct.quantifiers (i.block.expressions.flatMap constructs)

theorem searched_readInvariant (c : Cursor) : (readInvariant c).value.1.Searched := by
  rw [Invariant.Searched, ← AssertionBlock.constructs_eq, readInvariant]

theorem searched_readPart {i : Item} {is : List Item} {c : Cursor} {inv : Invariant}
    (h : (readPart i is c).value = .invariant inv) : inv.Searched := by
  generalize hr : readPart i is c = r at h
  cases readPart_cases hr with
  | invariant =>
    cases h
    exact searched_readInvariant c
  | _ => cases h

theorem searched_readParts {c : Cursor} {inv : Invariant}
    (h : .invariant inv ∈ (readParts c).value) : inv.Searched := by
  fun_induction readParts c with
  | case1 => cases h
  | case2 => cases h
  | case3 c i is hc hend hpos htaken part =>
    rename_i ih
    rcases List.mem_cons.mp h with hpart | h
    · exact searched_readPart hpart.symm
    · exact ih h

/-- Invariants count as one with the quantifiers of all. -/
theorem searched_merge? {is : List Invariant} (h : ∀ i ∈ is, i.Searched) :
    ∀ i ∈ Invariant.merge? is, i.Searched := by
  intro i hi
  cases is with
  | nil => cases hi
  | cons j is =>
    cases hi
    unfold Invariant.Searched AssertionBlock.expressions
    rw [Construct.quantifiers_flatMap, List.map_flatMap, List.flatMap_assoc]
    refine List.flatMap_congr fun k hk => ?_
    rw [h k hk, AssertionBlock.expressions, Construct.quantifiers_flatMap]

namespace QuantifierForm

/-- The findings about one span. -/
def ofSpan (s : Subject) (span : List Token) : List Diagnostic :=
  ((Construct.quantifiers (constructs span)).filter (!·.isWellFormed)).map (finding s)

end QuantifierForm

/-- What is collected from the features and the invariant of each class is what is collected from the
spans, if every feature and every invariant holds what is in its own. -/
theorem Tree.flatMap_spans {α : Type} (t : Tree) {ofFeature : Feature → List α}
    {ofInvariant : Invariant → List α} {ofSpan : List Token → List α}
    (hfeature : ∀ c ∈ t.classes, ∀ f ∈ c.features, ofFeature f = f.spans.flatMap ofSpan)
    (hinvariant : ∀ c ∈ t.classes, ∀ i ∈ c.invariant.toList,
      ofInvariant i = i.block.expressions.flatMap ofSpan) :
    (t.classes.flatMap fun c =>
      c.features.flatMap ofFeature ++ c.invariant.toList.flatMap ofInvariant) =
      t.spans.flatMap ofSpan := by
  rw [spans, List.flatMap_assoc]
  refine List.flatMap_congr fun c hc => ?_
  rw [List.flatMap_append, List.flatMap_assoc, List.flatMap_assoc,
    List.flatMap_congr (hfeature c hc), List.flatMap_congr (hinvariant c hc)]

/-- **The quantifiers of a tree are those of its spans.** -/
theorem quantifiers_parse (x : Lexed) : x.parse.tree.quantifiers =
    x.parse.tree.spans.flatMap fun span => Construct.quantifiers (constructs span) := by
  refine Tree.flatMap_spans _ (fun c hc f hf => ?_) fun c hc i hi => ?_
  · obtain rfl : c = (readClass (Cursor.ofLexed x)).value := List.mem_singleton.mp hc
    obtain ⟨n, first, d, hd, hf⟩ := readFrom_readClass hf
    rw [(searched_readDeclaration hd hf).quantifiers, Construct.quantifiers_flatMap]
  · obtain rfl : c = (readClass (Cursor.ofLexed x)).value := List.mem_singleton.mp hc
    have hsearched : i.Searched := by
      refine searched_merge? (fun j hj => ?_) i (Option.mem_toList.mp hi)
      obtain ⟨part, hpart, hsome⟩ := List.mem_filterMap.mp hj
      cases part <;> cases hsome
      exact searched_readParts hpart
    rw [hsearched, Construct.quantifiers_flatMap]

/-- **The findings of the rule are those about the spans.** -/
theorem QuantifierForm.check_eq_flatMap_spans (x : Lexed) :
    let s : Subject := ⟨x, x.parse.tree⟩
    check s = s.tree.spans.flatMap (ofSpan s) := by
  intro s
  rw [check, quantifiers_parse, List.filter_flatMap, List.map_flatMap]
  rfl

/-- **Quantifications are judged by their domains.**  For every text, the rule reports what it finds
in the spans of the tree.  In a span that is an expression it finds the quantifications, each at its
symbol and with its cursor and its colon; those without a quantification in the domain have their
bar as well, and exactly the others are reported.  An expression on one line, without separators, is
kept together, in one statement of the span around it. -/
theorem quantifications_judged (raw path : String) {ts : List Token} {qs : List Quantification}
    (h : Expression .free ts qs) :
    let x := (Source.ofString raw path).lex
    let s : Subject := ⟨x, x.parse.tree⟩
    QuantifierForm.check s = s.tree.spans.flatMap (QuantifierForm.ofSpan s) ∧
      Construct.quantifiers (constructs ts) = qs.map Quantification.quantifier ∧
      (∀ q ∈ qs, q.quantifier.isWellFormed = !q.isNested) ∧
      QuantifierForm.ofSpan s ts =
        (qs.filter Quantification.isNested).map (fun q => QuantifierForm.finding s q.quantifier) ∧
      ∀ before after line, ts ≠ [] → (∀ t ∈ before ++ (ts ++ after), t.isEof = false) →
        (∀ t ∈ ts, t.line = line ∧ isSeparator t = false) →
        ∃ statement ∈ statements (before ++ (ts ++ after)), ts <:+: statement := by
  intro x s
  refine ⟨QuantifierForm.check_eq_flatMap_spans x, h.quantifiers_eq,
    fun q _ => q.isWellFormed_quantifier, ?_,
    fun before after line hne heof hline => exists_statement_of_line hne heof hline⟩
  rw [QuantifierForm.ofSpan, h.quantifiers_eq, List.filter_map, List.map_map]
  simp [Function.comp_def, Quantification.isWellFormed_quantifier]

/-- A token of the first line, without a text. -/
def sampleToken (kind : Kind) : Token :=
  ⟨kind, "", ⟨1, 1, 0⟩, [], none⟩

/-- `∃ c : d ¦ e`. -/
def sampleExistence : Quantification where
  quantity := .thereExists
  symbol := sampleToken (.operator .thereExists)
  cursor := sampleToken .identifier
  domain := [sampleToken .identifier]

/-- `∀ c : domain ¦ body`. -/
def sampleUniversal (domain : List Token) : Quantification where
  quantity := .forAll
  symbol := sampleToken (.operator .forAll)
  cursor := sampleToken .identifier
  domain := domain

/-- The symbol of a quantification up to its bar. -/
def Quantification.sampleHead (q : Quantification) : List Token :=
  [q.symbol, q.cursor, sampleToken (.operator .colon)] ++ q.domain ++
    [sampleToken (.operator .brokenBar)]

/-- `f [ d ]`. -/
def sampleDomain : List Token :=
  [.identifier, .operator .openBracket, .identifier, .operator .closeBracket].map sampleToken

/-- `( ∃ c : d ¦ e )`. -/
def sampleNest : List Token :=
  sampleToken (.operator .openParen) :: (sampleExistence.sampleHead ++ [sampleToken .identifier] ++
    [sampleToken (.operator .closeParen)])

theorem expression_sampleExistence :
    Expression .free (sampleExistence.sampleHead ++ [sampleToken .identifier]) [sampleExistence] :=
  .quantification (q := sampleExistence) rfl rfl rfl rfl (.atom (by decide) (.nil _))
    (.atom (by decide) (.nil _))

/-- `∀ c : f [ d ] ¦ ∃ c : d ¦ e`, both quantifications with their bars. -/
theorem quantifications_judged_sample :
    let ts := (sampleUniversal sampleDomain).sampleHead ++
      (sampleExistence.sampleHead ++ [sampleToken .identifier])
    let qs := [sampleUniversal sampleDomain, sampleExistence]
    let x := (Source.ofString "class A end" "a.e").lex
    Expression .free ts qs ∧ (∀ q ∈ qs, q.quantifier.isWellFormed = true) ∧
      QuantifierForm.ofSpan ⟨x, x.parse.tree⟩ ts = [] ∧ ∃ s ∈ statements ts, ts <:+: s := by
  intro ts qs x
  have h : Expression .free ts qs :=
    .quantification (q := sampleUniversal sampleDomain) rfl rfl rfl rfl
      (.atom (by decide) (.brackets (.inr ⟨rfl, rfl⟩) (.atom (by decide) (.nil _)) (.nil _)))
      expression_sampleExistence
  obtain ⟨-, -, hwell, hreported, hkept⟩ := quantifications_judged "class A end" "a.e" h
  refine ⟨h, fun q hq => ?_, hreported, ?_⟩
  · rw [hwell q hq]
    revert q
    decide
  · simpa only [List.nil_append, List.append_nil] using
      hkept [] [] 1 (by decide) (by decide) (by decide)

/-- **A bar that is there is overlooked**: in `l : ∀ c : ( ∃ c : d ¦ e ) ¦ e` the outer quantifier
is read without its bar, and reported. -/
theorem bar_overlooked :
    let ts := (sampleUniversal sampleNest).sampleHead ++ [sampleToken .identifier]
    Expression .free ts [sampleUniversal sampleNest, sampleExistence] ∧
      (assertions (sampleToken .identifier :: sampleToken (.operator .colon) :: ts)).map
        Assertion.expression = [ts] ∧
      (Construct.quantifiers (constructs ts)).map Quantifier.isWellFormed = [false, true] ∧
      (∀ s, QuantifierForm.ofSpan s ts =
        [QuantifierForm.finding s (sampleUniversal sampleNest).quantifier]) ∧
      QuantifierForm.missing (sampleUniversal sampleNest).quantifier = ["'¦'"] := by
  intro ts
  have hdomain : Expression .domain sampleNest ([sampleExistence] ++ []) :=
    .brackets (.inl ⟨rfl, rfl⟩) expression_sampleExistence (.nil _)
  have h : Expression .free ts [sampleUniversal sampleNest, sampleExistence] :=
    .quantification (q := sampleUniversal sampleNest) rfl rfl rfl rfl hdomain
      (.atom (by decide) (.nil _))
  refine ⟨h, by decide, ?_, fun s => ?_, by decide⟩
  · rw [h.quantifiers_eq]
    decide
  · rw [QuantifierForm.ofSpan, h.quantifiers_eq]
    rfl

end ContractLint
