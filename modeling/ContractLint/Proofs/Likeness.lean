/-
# Texts that read alike

The grammar looks at little of a token: its kind, its column, and whether it stands on a later line
than another token.  What it copies into the tree it does not look at: places, names, the texts of
types, bodies token by token.  So two texts whose tokens agree in what the grammar looks at are read
in the same way, and their trees differ only in what was copied.

A `Likeness` says which tokens count as alike, and which places, names and texts then do.  Its laws
are all that is asked of it: alike tokens agree in what the grammar looks at, and what is copied
from alike tokens is alike.  This file lifts a likeness to items and cursors, to everything that a
tree is made of, and to errors; each `Alike` below relates two values of the same shape part by
part.  That reading keeps every likeness is the matter of the modules that follow.
-/
import ContractLint.Grammar.Class
import Mathlib.Data.List.Forall2

namespace ContractLint

open List (Forall₂)

/-! ## 1. Likenesses -/

/-- When tokens are alike, and what is alike in trees that are read from them. -/
structure Likeness where
  token : Token → Token → Prop
  place : Location → Location → Prop
  /-- Identifiers: names of features and entities, labels, clients. -/
  name : String → String → Prop
  /-- Names of parents, which may be a keyword. -/
  parent : String → String → Prop
  /-- Runs of tokens on one line: types, and the targets of agents. -/
  text : String → String → Prop
  /-- The text of a single comment. -/
  remark : String → String → Prop
  kind_eq {t u : Token} : token t u → t.kind = u.kind
  fault_eq {t u : Token} : token t u → t.fault = u.fault
  column_eq {t u : Token} : token t u → t.column = u.column
  line_lt_iff {t u t' u' : Token} : token t u → token t' u' →
    (t.line < t'.line ↔ u.line < u'.line)
  commentText_eq {t u : Token} : token t u → t.kind = .comment → t.commentText = u.commentText
  value_eq {t u : Token} : token t u → t.kind = .string → t.value = u.value
  place_token {t u : Token} : token t u → place t.location u.location
  name_token {t u : Token} : token t u → t.kind = .identifier → name t.text u.text
  name_empty : name "" ""
  parent_token {t u : Token} : token t u → t.kind = .identifier ∨ t.kind = .keyword .kwTuple →
    parent t.text u.text
  text_token {t u : Token} : token t u → text t.text u.text
  text_render {ts us : List Token} : Forall₂ token ts us →
    text (renderTokens ts) (renderTokens us)
  text_dot {a b p q : String} : text a b → text p q → text (a ++ "." ++ p) (b ++ "." ++ q)
  remark_token {t u : Token} : token t u → t.kind = .comment →
    remark t.commentText u.commentText

namespace Likeness

variable {L : Likeness} {t u t' u' : Token}

theorem line_beq (h : L.token t u) (h' : L.token t' u') :
    (t.line == t'.line) = (u.line == u'.line) := by
  have hlt := L.line_lt_iff h h'
  have hgt := L.line_lt_iff h' h
  rw [Bool.eq_iff_iff, beq_iff_eq, beq_iff_eq]
  omega

theorem isKeyword_eq (h : L.token t u) (ws : List Keyword) : t.isKeyword ws = u.isKeyword ws := by
  unfold Token.isKeyword
  rw [L.kind_eq h]

theorem isSymbol_eq (h : L.token t u) (ss : List Symbol) : t.isSymbol ss = u.isSymbol ss := by
  unfold Token.isSymbol
  rw [L.kind_eq h]

theorem isIdentifier_eq (h : L.token t u) : t.isIdentifier = u.isIdentifier := by
  unfold Token.isIdentifier
  rw [L.kind_eq h]

theorem isString_eq (h : L.token t u) : t.isString = u.isString := by
  unfold Token.isString
  rw [L.kind_eq h]

theorem isEof_eq (h : L.token t u) : t.isEof = u.isEof := by
  unfold Token.isEof
  rw [L.kind_eq h]

theorem isTrivia_eq (h : L.token t u) : t.isTrivia = u.isTrivia := by
  unfold Token.isTrivia
  rw [L.kind_eq h]

theorem quantity?_eq (h : L.token t u) : t.quantity? = u.quantity? := by
  unfold Token.quantity?
  rw [L.kind_eq h]

theorem isConstant_eq (h : L.token t u) : isConstant t = isConstant u := by
  unfold isConstant
  rw [L.kind_eq h]

end Likeness

/-! ## 2. Alike trees -/

/-- Names at alike places, alike as `spelled` says. -/
structure Name.Alike (L : Likeness) (spelled : String → String → Prop) (a b : Name) : Prop where
  text : spelled a.text b.text
  location : L.place a.location b.location

structure TypeRef.Alike (L : Likeness) (a b : TypeRef) : Prop where
  text : L.text a.text b.text
  mark : a.mark = b.mark
  location : L.place a.location b.location

structure Entity.Alike (L : Likeness) (a b : Entity) : Prop where
  name : Name.Alike L L.name a.name b.name
  type : TypeRef.Alike L a.type b.type

structure Assertion.Alike (L : Likeness) (a b : Assertion) : Prop where
  label : Option.Rel L.name a.label b.label
  expression : Forall₂ L.token a.expression b.expression
  location : L.place a.location b.location

structure AssertionBlock.Alike (L : Likeness) (a b : AssertionBlock) : Prop where
  kind : a.kind = b.kind
  location : L.place a.location b.location
  assertions : Forall₂ (Assertion.Alike L) a.assertions b.assertions
  extended : a.extended = b.extended

inductive Target.Alike (L : Likeness) : Target → Target → Prop
  | implicit : Alike L .implicit .implicit
  | closed {a b : String} (text : L.text a b) : Alike L (.closed a) (.closed b)
  | ofType {a b : String} (text : L.text a b) : Alike L (.ofType a) (.ofType b)

structure AgentArgument.Alike (L : Likeness) (a b : AgentArgument) : Prop where
  tokens : Forall₂ L.token a.tokens b.tokens
  location : L.place a.location b.location

inductive Agent.Alike (L : Likeness) : Agent → Agent → Prop
  | inline {l m : Location} (location : L.place l m) : Alike L (.inline l) (.inline m)
  | call {l m : Location} {p q : Target} {f g : String} {xs ys : Option (List AgentArgument)}
      (location : L.place l m) (target : Target.Alike L p q) (feature : L.name f g)
      (arguments : Option.Rel (Forall₂ (AgentArgument.Alike L)) xs ys) :
      Alike L (.call l p f xs) (.call m q g ys)

structure Quantifier.Alike (L : Likeness) (a b : Quantifier) : Prop where
  location : L.place a.location b.location
  quantity : a.quantity = b.quantity
  cursor : Option.Rel (Name.Alike L L.name) a.cursor b.cursor
  hasColon : a.hasColon = b.hasColon
  hasBar : a.hasBar = b.hasBar

inductive Body.Alike (L : Likeness) : Body → Body → Prop
  | absent : Alike L .absent .absent
  | instructions {ts us : List Token} (tokens : Forall₂ L.token ts us) :
      Alike L (.instructions ts) (.instructions us)
  | once {ts us : List Token} (keys : List (List CodePoint)) (tokens : Forall₂ L.token ts us) :
      Alike L (.once keys ts) (.once keys us)
  | deferred : Alike L .deferred .deferred
  | external : Alike L .external .external
  | attributive {ts us : List Token} (tokens : Forall₂ L.token ts us) :
      Alike L (.attributive ts) (.attributive us)

structure Feature.Alike (L : Likeness) (f g : Feature) : Prop where
  name : Name.Alike L L.name f.name g.name
  frozen : f.frozen = g.frozen
  parameters : Forall₂ (Entity.Alike L) f.parameters g.parameters
  returnType : Option.Rel (TypeRef.Alike L) f.returnType g.returnType
  headerComment : f.headerComment = g.headerComment
  precondition : Option.Rel (AssertionBlock.Alike L) f.precondition g.precondition
  postcondition : Option.Rel (AssertionBlock.Alike L) f.postcondition g.postcondition
  locals : Forall₂ (Entity.Alike L) f.locals g.locals
  body : Body.Alike L f.body g.body
  agents : Forall₂ (Agent.Alike L) f.agents g.agents
  quantifiers : Forall₂ (Quantifier.Alike L) f.quantifiers g.quantifiers
  innerBlocks : Forall₂ (AssertionBlock.Alike L) f.innerBlocks g.innerBlocks
  endLocation : L.place f.endLocation g.endLocation

structure Clause.Alike (L : Likeness) (a b : Clause) : Prop where
  kind : a.kind = b.kind
  location : L.place a.location b.location
  category : Option.Rel L.remark a.category b.category
  clients : Forall₂ L.name a.clients b.clients
  features : Forall₂ (Feature.Alike L) a.features b.features

structure Invariant.Alike (L : Likeness) (a b : Invariant) : Prop where
  block : AssertionBlock.Alike L a.block b.block
  agents : Forall₂ (Agent.Alike L) a.agents b.agents
  quantifiers : Forall₂ (Quantifier.Alike L) a.quantifiers b.quantifiers

/-- Classes of the same shape, alike in every part. -/
structure ClassDecl.Alike (L : Likeness) (a b : ClassDecl) : Prop where
  name : Name.Alike L L.name a.name b.name
  kind : a.kind = b.kind
  frozen : a.frozen = b.frozen
  generics : Forall₂ (Name.Alike L L.name) a.generics b.generics
  parents : Forall₂ (Name.Alike L L.parent) a.parents b.parents
  creators : Forall₂ (Name.Alike L L.name) a.creators b.creators
  clauses : Forall₂ (Clause.Alike L) a.clauses b.clauses
  invariant : Option.Rel (Invariant.Alike L) a.invariant b.invariant

/-! ## 3. Alike errors -/

/-- The token that a fault quotes. -/
def SyntaxFault.found? : SyntaxFault → Option Token
  | expectedKeyword _ found | expectedSymbol _ found | expectedName _ found
  | unexpected found | unexpectedInClass found | unexpectedInInheritance found
  | expectedFeature found
  | expectedConstant found | bareFeature _ found | expectedAnchor found | expectedType found
  | expectedBody found | unexpectedAfterEnd found | agentWithoutFeature found => some found
  | _ => none

/-- Faults of one form that quote alike tokens. -/
inductive SyntaxFault.Alike (L : Likeness) : SyntaxFault → SyntaxFault → Prop
  | plain {f : SyntaxFault} (h : f.found? = none) : Alike L f f
  | expectedKeyword {t u : Token} (w : Keyword) (h : L.token t u) :
      Alike L (.expectedKeyword w t) (.expectedKeyword w u)
  | expectedSymbol {t u : Token} (s : Symbol) (h : L.token t u) :
      Alike L (.expectedSymbol s t) (.expectedSymbol s u)
  | expectedName {t u : Token} (r : NameRole) (h : L.token t u) :
      Alike L (.expectedName r t) (.expectedName r u)
  | unexpected {t u : Token} (h : L.token t u) : Alike L (.unexpected t) (.unexpected u)
  | unexpectedInClass {t u : Token} (h : L.token t u) :
      Alike L (.unexpectedInClass t) (.unexpectedInClass u)
  | unexpectedInInheritance {t u : Token} (h : L.token t u) :
      Alike L (.unexpectedInInheritance t) (.unexpectedInInheritance u)
  | expectedFeature {t u : Token} (h : L.token t u) :
      Alike L (.expectedFeature t) (.expectedFeature u)
  | expectedConstant {t u : Token} (h : L.token t u) :
      Alike L (.expectedConstant t) (.expectedConstant u)
  | bareFeature {t u : Token} {a b : String} (name : L.name a b) (h : L.token t u) :
      Alike L (.bareFeature a t) (.bareFeature b u)
  | expectedAnchor {t u : Token} (h : L.token t u) :
      Alike L (.expectedAnchor t) (.expectedAnchor u)
  | expectedType {t u : Token} (h : L.token t u) : Alike L (.expectedType t) (.expectedType u)
  | expectedBody {t u : Token} (h : L.token t u) : Alike L (.expectedBody t) (.expectedBody u)
  | unexpectedAfterEnd {t u : Token} (h : L.token t u) :
      Alike L (.unexpectedAfterEnd t) (.unexpectedAfterEnd u)
  | agentWithoutFeature {t u : Token} (h : L.token t u) :
      Alike L (.agentWithoutFeature t) (.agentWithoutFeature u)

structure SyntaxError.Alike (L : Likeness) (a b : SyntaxError) : Prop where
  fault : SyntaxFault.Alike L a.fault b.fault
  location : L.place a.location b.location

/-- Attempts that both succeed, with results as `R` says, or both fail, with alike errors. -/
inductive Attempt.Alike {α β : Type} (L : Likeness) (R : α → β → Prop) :
    Except SyntaxError α → Except SyntaxError β → Prop
  | ok {a : α} {b : β} (h : R a b) : Alike L R (.ok a) (.ok b)
  | error {e f : SyntaxError} (h : SyntaxError.Alike L e f) : Alike L R (.error e) (.error f)

namespace Attempt.Alike

variable {L : Likeness} {α β γ δ : Type} {R : α → β → Prop} {S : γ → δ → Prop}

theorem bind {x : Except SyntaxError α} {y : Except SyntaxError β} {f : α → Except SyntaxError γ}
    {g : β → Except SyntaxError δ} (h : Alike L R x y)
    (hfg : ∀ a b, R a b → Alike L S (f a) (g b)) : Alike L S (x >>= f) (y >>= g) := by
  cases h with
  | ok hab => exact hfg _ _ hab
  | error he => exact .error he

theorem of_ok {x : Except SyntaxError α} {y : Except SyntaxError β} {a : α} (h : Alike L R x y)
    (hx : x = .ok a) : ∃ b, y = .ok b ∧ R a b := by
  cases h with
  | ok hab =>
    cases hx
    exact ⟨_, rfl, hab⟩
  | error _ => cases hx

theorem of_error {x : Except SyntaxError α} {y : Except SyntaxError β} {e : SyntaxError}
    (h : Alike L R x y) (hx : x = .error e) : ∃ f, y = .error f ∧ SyntaxError.Alike L e f := by
  cases h with
  | ok _ => cases hx
  | error hef =>
    cases hx
    exact ⟨_, rfl, hef⟩

end Attempt.Alike

/-! ## 4. Lists of alike elements -/

section Lists

variable {α β : Type} {R : α → β → Prop} {as : List α} {bs : List β} {p : α → Bool} {q : β → Bool}

theorem forall₂_head? (h : Forall₂ R as bs) : Option.Rel R as.head? bs.head? := by
  cases h with
  | nil => exact .none
  | cons hab _ => exact .some hab

theorem forall₂_getLast? (h : Forall₂ R as bs) : Option.Rel R as.getLast? bs.getLast? := by
  rw [List.getLast?_eq_head?_reverse, List.getLast?_eq_head?_reverse]
  exact forall₂_head? (List.rel_reverse h)

theorem forall₂_getElem? (h : Forall₂ R as bs) (n : Nat) : Option.Rel R as[n]? bs[n]? := by
  rw [← List.head?_drop, ← List.head?_drop]
  exact forall₂_head? (List.forall₂_drop n h)

theorem forall₂_dropLast (h : Forall₂ R as bs) : Forall₂ R as.dropLast bs.dropLast := by
  rw [List.dropLast_eq_take, List.dropLast_eq_take, h.length_eq]
  exact List.forall₂_take _ h

/-- Where a test is blind to the difference, it lets alike prefixes through. -/
theorem forall₂_takeWhile (hpq : ∀ a b, R a b → p a = q b) (h : Forall₂ R as bs) :
    Forall₂ R (as.takeWhile p) (bs.takeWhile q) := by
  induction h with
  | nil => exact .nil
  | cons hab _ ih =>
    rw [List.takeWhile_cons, List.takeWhile_cons, hpq _ _ hab]
    split
    · exact .cons hab ih
    · exact .nil

theorem forall₂_filter (hpq : ∀ a b, R a b → p a = q b) (h : Forall₂ R as bs) :
    Forall₂ R (as.filter p) (bs.filter q) :=
  List.rel_filter (fun a b hab => Bool.eq_iff_iff.mp (hpq a b hab)) h

/-- What passed the test may be used of the elements that are left. -/
theorem forall₂_filter_and (hpq : ∀ a b, R a b → p a = q b) (h : Forall₂ R as bs) :
    Forall₂ (fun a b => p a = true ∧ R a b) (as.filter p) (bs.filter q) :=
  (List.forall₂_and_left _ _).mpr ⟨fun _ => List.of_mem_filter, forall₂_filter hpq h⟩

theorem forall₂_find? (hpq : ∀ a b, R a b → p a = q b) (h : Forall₂ R as bs) :
    Option.Rel R (as.find? p) (bs.find? q) := by
  rw [← List.head?_filter, ← List.head?_filter]
  exact forall₂_head? (forall₂_filter hpq h)

theorem forall₂_map_eq {γ : Type} {f : α → γ} {g : β → γ} (hfg : ∀ a b, R a b → f a = g b)
    (h : Forall₂ R as bs) : as.map f = bs.map g :=
  List.forall₂_eq_eq_eq ▸ List.rel_map hfg h

theorem forall₂_any (hpq : ∀ a b, R a b → p a = q b) (h : Forall₂ R as bs) :
    as.any p = bs.any q := by
  induction h with
  | nil => rfl
  | cons hab _ ih => rw [List.any_cons, List.any_cons, hpq _ _ hab, ih]

theorem rel_any {o : Option α} {o' : Option β} (hpq : ∀ a b, R a b → p a = q b)
    (h : Option.Rel R o o') : o.any p = o'.any q := by
  cases h with
  | none => rfl
  | some hab => exact hpq _ _ hab

theorem rel_isSome {o : Option α} {o' : Option β} (h : Option.Rel R o o') :
    o.isSome = o'.isSome := by
  cases h <;> rfl

theorem rel_isNone {o : Option α} {o' : Option β} (h : Option.Rel R o o') :
    o.isNone = o'.isNone := by
  cases h <;> rfl

theorem rel_map {γ δ : Type} {S : γ → δ → Prop} {f : α → γ} {g : β → δ} {o : Option α}
    {o' : Option β} (hfg : ∀ a b, R a b → S (f a) (g b)) (h : Option.Rel R o o') :
    Option.Rel S (o.map f) (o'.map g) := by
  cases h with
  | none => exact .none
  | some hab => exact .some (hfg _ _ hab)

theorem rel_toList {o : Option α} {o' : Option β} (h : Option.Rel R o o') :
    Forall₂ R o.toList o'.toList := by
  cases h with
  | none => exact .nil
  | some hab => exact .cons hab .nil

theorem rel_getD {o : Option α} {o' : Option β} {a : α} {b : β} (h : Option.Rel R o o')
    (hab : R a b) : R (o.getD a) (o'.getD b) := by
  cases h with
  | none => exact hab
  | some h => exact h

theorem rel_self_of_mem {R : α → α → Prop} {o : Option α} (h : Option.Rel R o o) :
    ∀ a ∈ o, R a a := by
  intro a ha
  cases ha
  cases h with
  | some h => exact h

end Lists

/-! ## 5. Alike cursors -/

structure Item.Alike (L : Likeness) (i j : Item) : Prop where
  token : L.token i.token j.token
  startsLine : i.startsLine = j.startsLine
  comments : Forall₂ (fun t u => L.token t u ∧ t.kind = .comment) i.comments j.comments

structure Cursor.Alike (L : Likeness) (c d : Cursor) : Prop where
  items : Forall₂ (Item.Alike L) c.items d.items
  eof : L.token c.eof d.eof

namespace Item.Alike

variable {L : Likeness} {i j : Item}

theorem startsDeclaration_eq (h : Item.Alike L i j) :
    i.startsDeclaration = j.startsDeclaration := by
  unfold startsDeclaration
  rw [L.isIdentifier_eq h.token, L.isKeyword_eq h.token]

theorem isSibling_eq (h : Item.Alike L i j) (column : Option Int) :
    i.isSibling column = j.isSibling column := by
  unfold isSibling
  rw [L.column_eq h.token, h.startsDeclaration_eq, h.startsLine]

theorem headerComment_eq (h : Item.Alike L i j) : i.headerComment = j.headerComment := by
  have htexts : i.comments.map Token.commentText = j.comments.map Token.commentText :=
    forall₂_map_eq (fun _ _ htu => L.commentText_eq htu.1 htu.2) h.comments
  unfold headerComment
  rw [htexts]

theorem category? (h : Item.Alike L i j) : Option.Rel L.remark i.category? j.category? := by
  obtain ⟨t, starts, comments⟩ := i
  obtain ⟨u, starts', comments'⟩ := j
  obtain ⟨htoken, -, hcomments⟩ := h
  unfold Item.category?
  cases hcomments with
  | nil => exact .none
  | cons htu _ =>
    dsimp only
    rw [L.line_beq htu.1 htoken]
    split
    · exact .some (L.remark_token htu.1 htu.2)
    · exact .none

end Item.Alike

namespace Cursor.Alike

variable {L : Likeness} {c d : Cursor}

theorem size_eq (h : Cursor.Alike L c d) : c.size = d.size :=
  h.items.length_eq

theorem items_of_nil (h : Cursor.Alike L c d) (hc : c.items = []) : d.items = [] := by
  have hitems := h.items
  rwa [hc, List.forall₂_nil_left_iff] at hitems

theorem items_of_cons {i : Item} {is : List Item} (h : Cursor.Alike L c d)
    (hc : c.items = i :: is) :
    ∃ j js, Item.Alike L i j ∧ Forall₂ (Item.Alike L) is js ∧ d.items = j :: js := by
  have hitems := h.items
  rwa [hc, List.forall₂_cons_left_iff] at hitems

theorem drop (h : Cursor.Alike L c d) (n : Nat) : Cursor.Alike L (c.drop n) (d.drop n) :=
  ⟨List.forall₂_drop n h.items, h.eof⟩

theorem next (h : Cursor.Alike L c d) : Cursor.Alike L c.next d.next :=
  h.drop 1

theorem peek (h : Cursor.Alike L c d) : L.token c.peek d.peek := by
  obtain ⟨hitems, heof⟩ := h
  unfold Cursor.peek
  exact rel_getD (rel_map (fun _ _ hij => hij.token) (forall₂_head? hitems)) heof

theorem peek_place (h : Cursor.Alike L c d) : L.place c.peek.location d.peek.location :=
  L.place_token h.peek

theorem tokens (h : Cursor.Alike L c d) : Forall₂ L.token c.tokens d.tokens :=
  List.rel_map (fun _ _ hij => hij.token) h.items

theorem take (h : Cursor.Alike L c d) (n : Nat) : Forall₂ L.token (c.take n) (d.take n) :=
  List.rel_map (fun _ _ hij => hij.token) (List.forall₂_take n h.items)

theorem last? (h : Cursor.Alike L c d) (n : Nat) :
    Option.Rel (Item.Alike L) (c.last? n) (d.last? n) :=
  forall₂_getLast? (List.forall₂_take n h.items)

theorem test_eq {p : Token → Bool} (hp : ∀ t u, L.token t u → p t = p u)
    (h : Cursor.Alike L c d) : c.test p = d.test p := by
  unfold test
  exact rel_any (fun i j hij => hp i.token j.token hij.token) (forall₂_head? h.items)

theorem atKeyword (h : Cursor.Alike L c d) (ws : List Keyword) :
    c.atKeyword ws = d.atKeyword ws :=
  h.test_eq fun _ _ htu => L.isKeyword_eq htu ws

theorem atSymbol (h : Cursor.Alike L c d) (ss : List Symbol) : c.atSymbol ss = d.atSymbol ss :=
  h.test_eq fun _ _ htu => L.isSymbol_eq htu ss

theorem atIdentifier (h : Cursor.Alike L c d) : c.atIdentifier = d.atIdentifier :=
  h.test_eq fun _ _ htu => L.isIdentifier_eq htu

theorem atString (h : Cursor.Alike L c d) : c.atString = d.atString :=
  h.test_eq fun _ _ htu => L.isString_eq htu

theorem atEnd (h : Cursor.Alike L c d) : c.atEnd = d.atEnd := by
  unfold Cursor.atEnd
  rw [Bool.eq_iff_iff, List.isEmpty_iff_length_eq_zero, List.isEmpty_iff_length_eq_zero,
    h.items.length_eq]

theorem optKeyword (h : Cursor.Alike L c d) (ws : List Keyword) :
    c.optKeyword ws = d.optKeyword ws := by
  unfold Cursor.optKeyword
  rw [h.atKeyword]

theorem optSymbol (h : Cursor.Alike L c d) (ss : List Symbol) :
    c.optSymbol ss = d.optSymbol ss := by
  unfold Cursor.optSymbol
  rw [h.atSymbol]

/-- The names at the cursors are alike, if there are names. -/
theorem peek_name (h : Cursor.Alike L c d) (hname : c.atIdentifier = true) :
    Name.Alike L L.name c.peek.name d.peek.name := by
  refine ⟨L.name_token h.peek ?_, h.peek_place⟩
  unfold Cursor.atIdentifier test at hname
  unfold Cursor.peek
  cases hi : c.items with
  | nil => simp [hi] at hname
  | cons i is => simpa [hi, Token.isIdentifier] using hname

end Cursor.Alike

end ContractLint
