/-
# Types and entities are read as they are written

Where a type or a group of entities stands at the cursor, and nothing follows that could be taken
for a part of it, the readers return what it means and take exactly its items.  What may follow a
type (`afterType`) is the crux: neither a dot, which would prolong an anchor, nor a bracket, which
would be taken for actual generics.
-/
import ContractLint.Proofs.Follow

namespace ContractLint

/-! ## 1. Types -/

theorem Token.isSymbol_cons (t : Token) (s : Symbol) (ss : List Symbol) :
    t.isSymbol (s :: ss) = (t.isSymbol [s] || t.isSymbol ss) := by
  unfold Token.isSymbol
  split <;> simp

/-- Balanced brackets inside brackets are passed over as a whole. -/
theorem Bracketed.bracketLengthFrom_append {is : List Item} (h : Bracketed is) :
    ∀ {depth : Nat}, 0 < depth → ∀ rest : List Item,
      bracketLengthFrom depth (is ++ rest) = is.length + bracketLengthFrom depth rest := by
  induction h with
  | nil => simp
  | plain hi _ ih =>
    intro depth hdepth rest
    rw [Token.isSymbol_cons, Bool.or_eq_false_iff] at hi
    simp only [List.cons_append, bracketLengthFrom, hi, ih hdepth, List.length_cons,
      Bool.false_eq_true, if_false]
    omega
  | nested opening closing _ _ ihinner ihouter =>
    intro depth hdepth rest
    have hopen : opening.item.token.isSymbol [.openBracket] = true := by simp
    have hclose : closing.item.token.isSymbol [.openBracket] = false := by simp
    have hclose' : closing.item.token.isSymbol [.closeBracket] = true := by simp
    have hdepth' : 0 < depth + 1 := Nat.succ_pos depth
    have hnot : ¬ depth + 1 ≤ 1 := by omega
    simp only [List.cons_append, List.append_assoc, bracketLengthFrom, hopen, hclose, hclose',
      if_true, Bool.false_eq_true, if_false, ihinner hdepth', hnot,
      Nat.add_sub_cancel, ihouter hdepth, List.length_cons, List.length_append]
    omega

theorem bracketLength_generics (g : GenericsForm) (rest : List Item) (e : Token) :
    (⟨g.items ++ rest, e⟩ : Cursor).bracketLength = g.items.length := by
  simp [GenericsForm.items, Cursor.bracketLength, bracketLengthFrom,
    g.bracketed.bracketLengthFrom_append Nat.zero_lt_one]

theorem bracketLength_opt (generics : Option GenericsForm) {rest : List Item} {ks : List Kind}
    (e : Token) (h : Heads ks rest) (hks : Kind.operator .openBracket ∉ ks) :
    (⟨optItems GenericsForm.items generics ++ rest, e⟩ : Cursor).bracketLength =
      (optItems GenericsForm.items generics).length := by
  cases generics with
  | none =>
    have hrest : (⟨rest, e⟩ : Cursor).atSymbol [.openBracket] = false :=
      h.atSymbol (by simpa using hks)
    simp [optItems, Cursor.bracketLength, hrest]
  | some g => exact bracketLength_generics g rest e

theorem qualifierLength_path {rest : List Item} {ks : List Kind} (h : Heads ks rest)
    (hks : Kind.operator .dot ∉ ks) : ∀ path : List (Mark .dot × Identifier),
    qualifierLength (path.flatMap pathItems ++ rest) = (path.flatMap pathItems).length
  | [] => by
    have hrest : (⟨rest, default⟩ : Cursor).atSymbol [.dot] = false :=
      h.atSymbol (by simpa using hks)
    match rest, hrest with
    | [], _ => rfl
    | [_], _ => rfl
    | d :: i :: rest, hrest =>
      have hd : d.token.isSymbol [.dot] = false := hrest
      simp [qualifierLength, hd]
  | (dot, name) :: path => by
    have ih := qualifierLength_path h hks path
    simp [pathItems, qualifierLength, ih]

/-- The kinds that may follow a type. -/
def afterType : List Kind :=
  [.identifier, .operator .closeParen, .operator .semicolon, .keyword .kwFrozen,
   .keyword .kwRequire, .keyword .kwLocal, .keyword .kwDo, .keyword .kwOnce, .keyword .kwDeferred,
   .keyword .kwFeature, .keyword .kwCreate, .keyword .kwInvariant, .keyword .kwEnd]

theorem typeLength_form (t : TypeCoreForm) {rest : List Item} (e : Token)
    (h : Heads afterType rest) : typeLength ⟨t.items ++ rest, e⟩ = .ok t.items.length := by
  cases t with
  | anchor like target path =>
    have htarget : (target.item.token.isIdentifier || target.item.token.isKeyword [.kwCurrent]) =
        true := by
      rcases target.kind_or with hk | hk <;> simp [Token.isIdentifier, Token.isKeyword, hk]
    simp only [TypeCoreForm.items, List.cons_append, typeLength, Cursor.atKeyword_cons,
      Cursor.next_cons, Cursor.atIdentifier_cons, htarget, if_true]
    simp [Cursor.drop, qualifierLength_path h (by decide)]
    omega
  | named name generics =>
    have hlike : name.item.token.isKeyword [.kwLike] = false := by
      rcases name.kind_or with hk | hk <;> simp [Token.isKeyword, hk]
    have hname : (name.item.token.isIdentifier || name.item.token.isKeyword [.kwTuple]) = true := by
      rcases name.kind_or with hk | hk <;> simp [Token.isIdentifier, Token.isKeyword, hk]
    simp only [TypeCoreForm.items, List.cons_append, typeLength, Cursor.atKeyword_cons, hlike,
      Cursor.next_cons, Cursor.atIdentifier_cons, hname, if_true, Bool.false_eq_true, if_false,
      bracketLength_opt generics e h (by decide), List.length_cons, Nat.add_comm]

/-- The kinds that a type may start with behind its mark. -/
def typeHeads : List Kind :=
  [.keyword .kwSeparate, .keyword .kwFrozen, .keyword .kwLike, .keyword .kwTuple, .identifier]

theorem TypeCoreForm.heads (t : TypeCoreForm) (rest : List Item) :
    Heads [.keyword .kwLike, .keyword .kwTuple, .identifier] (t.items ++ rest) := by
  cases t with
  | anchor like target path => exact (Heads.leaf like _).mono (by decide)
  | named name generics => exact (Heads.leaf name _).mono (by decide)

theorem readTypeMark_form (m : TypeMarkForm) {rest : List Item} (e : Token)
    (h : Heads typeHeads rest) :
    readTypeMark ⟨m.items ++ rest, e⟩ = (m.mark, m.items.length) := by
  cases m with
  | unmarked =>
    have h₁ : (⟨rest, e⟩ : Cursor).atKeyword [.kwAttached] = false := h.atKeyword (by decide)
    have h₂ : (⟨rest, e⟩ : Cursor).atSymbol [.bang] = false := h.atSymbol (by decide)
    have h₃ : (⟨rest, e⟩ : Cursor).atKeyword [.kwDetachable] = false := h.atKeyword (by decide)
    have h₄ : (⟨rest, e⟩ : Cursor).atSymbol [.question] = false := h.atSymbol (by decide)
    simp [readTypeMark, TypeMarkForm.items, TypeMarkForm.mark, h₁, h₂, h₃, h₄]
  | attached leaf =>
    rcases leaf.kind_or with hk | hk <;>
      simp [readTypeMark, TypeMarkForm.items, TypeMarkForm.mark, Leaf.items, Token.isKeyword,
        Token.isSymbol, hk]
  | detachable leaf =>
    rcases leaf.kind_or with hk | hk <;>
      simp [readTypeMark, TypeMarkForm.items, TypeMarkForm.mark, Leaf.items, Token.isKeyword,
        Token.isSymbol, hk]

theorem readType_form (t : TypeForm) {rest : List Item} (e : Token) (h : Heads afterType rest) :
    readType ⟨t.items ++ rest, e⟩ = .ok (t.type, t.items.length) := by
  have hpeek := Cursor.peek_append t.items rest e t.items_ne_nil
  have hcore := t.core.heads rest
  have hfrozen : Heads typeHeads (optItems Leaf.items t.frozen ++ (t.core.items ++ rest)) :=
    Heads.opt (fun l => (Heads.leaf l _).mono (by decide)) (hcore.mono (by decide))
  have hseparate : Heads typeHeads (optItems Leaf.items t.separate ++
      (optItems Leaf.items t.frozen ++ (t.core.items ++ rest))) :=
    Heads.opt (fun l => (Heads.leaf l _).mono (by decide)) hfrozen
  have hfrozen' : Heads [.keyword .kwFrozen, .keyword .kwLike, .keyword .kwTuple, .identifier]
      (optItems Leaf.items t.frozen ++ (t.core.items ++ rest)) :=
    Heads.opt (fun l => (Heads.leaf l _).mono (by decide)) (hcore.mono (by decide))
  unfold readType
  rw [hpeek]
  simp only [TypeForm.items, List.append_assoc, readTypeMark_form t.mark e hseparate,
    Cursor.drop_add, Cursor.drop_append, hfrozen'.optKeyword t.separate (by decide),
    hcore.optKeyword t.frozen (by decide), typeLength_form t.core e h]
  simp [TypeForm.type, TypeForm.items, bind, Except.bind, pure, Except.pure, Nat.add_assoc]

/-! ## 2. Entities -/

theorem Commas.length_toList_pos {α : Type} (ns : Commas α) : 0 < ns.toList.length := by
  cases ns <;> simp [toList]

theorem Commas.length_items_leaves : ∀ ns : Commas Identifier,
    (ns.items Leaf.items).length = 2 * ns.toList.length - 1
  | .one _ => rfl
  | .more a comma rest => by
    have ih := rest.length_items_leaves
    have hpos := rest.length_toList_pos
    simp only [items, toList, Leaf.items, List.length_append, List.length_cons, List.length_nil, ih]
    omega

theorem Commas.heads (ns : Commas Identifier) (rest : List Item) :
    Heads [.identifier] (ns.items Leaf.items ++ rest) := by
  cases ns with
  | one a => exact Heads.leaf a _
  | more a comma ns => exact Heads.leaf a _

theorem Commas.atIdentifier_items (ns : Commas Identifier) (rest : List Item) (e : Token) :
    (⟨ns.items Leaf.items ++ rest, e⟩ : Cursor).atIdentifier = true := by
  cases ns with
  | one a => exact a.isIdentifier_identifier
  | more a comma ns => exact a.isIdentifier_identifier

theorem readNames_form (role : NameRole) {rest : List Item} {ks : List Kind} (e : Token)
    (h : Heads ks rest) (hks : Kind.operator .comma ∉ ks) : ∀ ns : Commas Identifier,
    readNames role ⟨ns.items Leaf.items ++ rest, e⟩ = .ok (ns.toList.map Leaf.name)
  | .one a => by
    have hrest : (⟨rest, e⟩ : Cursor).atSymbol [.comma] = false := h.atSymbol (by simpa using hks)
    rw [readNames]
    simp [Commas.items, Commas.toList, Leaf.items, Leaf.name, hrest]
  | .more a comma ns => by
    have ih := readNames_form role e h hks ns
    rw [readNames]
    simp [Commas.items, Commas.toList, Leaf.items, Leaf.name, Cursor.drop, ih]

/-- The kinds that may follow a group of entities. -/
def afterGroup : List Kind :=
  [.identifier, .operator .closeParen, .keyword .kwDo, .keyword .kwOnce, .keyword .kwDeferred]

theorem GroupForm.heads (g : GroupForm) (rest : List Item) :
    Heads [.identifier] (g.items ++ rest) := by
  rw [items, List.append_assoc]
  exact g.names.heads _

theorem GroupForm.atIdentifier (g : GroupForm) (rest : List Item) (e : Token) :
    (⟨g.items ++ rest, e⟩ : Cursor).atIdentifier = true := by
  rw [items, List.append_assoc]
  exact g.names.atIdentifier_items _ e

theorem GroupForm.length_items_pos (g : GroupForm) : 0 < g.items.length := by
  rw [items, List.length_append, List.length_cons]
  omega

theorem readEntities_form (role : NameRole) (g : GroupForm) {rest : List Item} (e : Token)
    (h : Heads afterGroup rest) :
    readEntities role ⟨g.items ++ rest, e⟩ =
      .ok ⟨g.entities, g.items.length, g.length_items_pos⟩ := by
  have hsemicolon : Heads afterType (optItems Leaf.items g.semicolon ++ rest) :=
    Heads.opt (fun l => (Heads.leaf l _).mono (by decide)) (h.mono (by decide))
  have hcolon := Heads.leaf g.colon (g.type.items ++ (optItems Leaf.items g.semicolon ++ rest))
  have hlength : 2 * (g.names.toList.map Leaf.name).length - 1 =
      (g.names.items Leaf.items).length := by
    rw [List.length_map, g.names.length_items_leaves]
  unfold readEntities
  simp only [GroupForm.items, List.append_assoc, List.cons_append, bind, Except.bind,
    readNames_form role e hcolon (by decide), hlength, Cursor.drop_append, Cursor.atSymbol_cons,
    Cursor.next_cons, Leaf.isSymbol_mark, readType_form g.type e hsemicolon, Cursor.drop_add,
    Cursor.drop_one_cons, h.optSymbol g.semicolon (by decide)]
  simp [GroupForm.entities, pure, Except.pure, Nat.add_assoc, Nat.add_comm 1]

theorem Heads.groups {rest : List Item} (h : Heads afterGroup rest) (gs : List GroupForm) :
    Heads afterGroup (gs.flatMap GroupForm.items ++ rest) :=
  Heads.flatMap (fun g is => (g.heads is).mono (by decide)) h gs

theorem readArgumentGroups_form (rest : List Item) (e : Token) (closing : Mark .closeParen) :
    ∀ gs : List GroupForm,
    readArgumentGroups ⟨gs.flatMap GroupForm.items ++ closing.item :: rest, e⟩ =
      .ok (gs.flatMap GroupForm.entities, (gs.flatMap GroupForm.items).length)
  | [] => by
    rw [readArgumentGroups]
    simp
  | g :: gs => by
    have ih := readArgumentGroups_form rest e closing gs
    have hrest := Heads.groups ((Heads.leaf closing rest).mono (by decide)) gs
    have hclose : (⟨g.items ++ (gs.flatMap GroupForm.items ++ closing.item :: rest), e⟩ :
        Cursor).atSymbol [.closeParen] = false := (g.heads _).atSymbol (by decide)
    rw [List.flatMap_cons, List.append_assoc, readArgumentGroups]
    simp only [hclose, g.atIdentifier, readEntities_form .argumentName g e hrest, bind, Except.bind,
      Cursor.drop_append, ih, Bool.false_eq_true, if_false, dite_true]
    simp [pure, Except.pure]

theorem readArguments_form {rest : List Item} {ks : List Kind} (e : Token) (h : Heads ks rest)
    (hks : Kind.operator .openParen ∉ ks) (arguments : Option ArgumentsForm) :
    readArguments ⟨optItems ArgumentsForm.items arguments ++ rest, e⟩ =
      .ok (arguments.elim [] fun a => a.groups.flatMap GroupForm.entities,
        (optItems ArgumentsForm.items arguments).length) := by
  cases arguments with
  | none =>
    have hrest : (⟨rest, e⟩ : Cursor).atSymbol [.openParen] = false :=
      h.atSymbol (by simpa using hks)
    simp [optItems, readArguments, hrest]
  | some a =>
    have hgroups := readArgumentGroups_form rest e a.closing a.groups
    simp [optItems, ArgumentsForm.items, readArguments, hgroups, bind, Except.bind, pure,
      Except.pure, Nat.add_comm 1]

/-- The kinds that a routine's body starts with. -/
def bodyHeads : List Kind :=
  [.keyword .kwDo, .keyword .kwOnce, .keyword .kwDeferred]

theorem readLocalGroups_form {rest : List Item} (e : Token) (h : Heads bodyHeads rest) :
    ∀ gs : List GroupForm, readLocalGroups ⟨gs.flatMap GroupForm.items ++ rest, e⟩ =
      .ok (gs.flatMap GroupForm.entities, (gs.flatMap GroupForm.items).length)
  | [] => by
    have hrest : (⟨rest, e⟩ : Cursor).atIdentifier = false := h.atIdentifier (by decide)
    rw [readLocalGroups]
    simp [hrest]
  | g :: gs => by
    have ih := readLocalGroups_form e h gs
    have hrest := Heads.groups (h.mono (by decide)) gs
    rw [List.flatMap_cons, List.append_assoc, readLocalGroups]
    simp only [g.atIdentifier, readEntities_form .localName g e hrest, bind, Except.bind,
      Cursor.drop_append, ih, dite_true]
    simp [pure, Except.pure]

theorem readLocals_form {rest : List Item} (e : Token) (h : Heads bodyHeads rest)
    (locals : Option LocalsForm) :
    readLocals ⟨optItems LocalsForm.items locals ++ rest, e⟩ =
      .ok (locals.elim [] fun l => l.groups.flatMap GroupForm.entities,
        (optItems LocalsForm.items locals).length) := by
  cases locals with
  | none =>
    have hrest : (⟨rest, e⟩ : Cursor).atKeyword [.kwLocal] = false := h.atKeyword (by decide)
    simp [optItems, readLocals, hrest]
  | some l =>
    have hgroups := readLocalGroups_form e h l.groups
    simp [optItems, LocalsForm.items, readLocals, hgroups, bind, Except.bind, pure, Except.pure,
      Nat.add_comm 1]

end ContractLint
