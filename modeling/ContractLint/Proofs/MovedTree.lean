/-
# Moving a tree

A tree keeps points of its text: of names and clauses, of the ends of features, and of the tokens in
bodies and expressions.  `Tree.move` moves them all and leaves everything else as it is.

The grammar compares columns and asks which of two tokens is on the later line.  A motion that keeps
columns and the order of lines is therefore a likeness (`Motion.likeness`), and for it alike trees
are nothing but moved trees (`ClassDecl.eq_move`): moving the tokens of a text moves its tree and
its errors, and the messages stay.
-/
import ContractLint.Proofs.LikeReadings
import ContractLint.Proofs.Motion
import ContractLint.Proofs.Point

namespace ContractLint

open List (Forall₂)

/-! ## 1. Trees -/

section Definitions

variable (m : Motion)

def Name.move (a : Name) : Name :=
  { a with location := m.place a.location }

def TypeRef.move (a : TypeRef) : TypeRef :=
  { a with location := m.place a.location }

def Entity.move (a : Entity) : Entity :=
  ⟨a.name.move m, a.type.move m⟩

def Assertion.move (a : Assertion) : Assertion :=
  { a with expression := a.expression.map (Token.move m), location := m.place a.location }

def AssertionBlock.move (a : AssertionBlock) : AssertionBlock :=
  { a with location := m.place a.location, assertions := a.assertions.map (Assertion.move m) }

def AgentArgument.move (a : AgentArgument) : AgentArgument :=
  ⟨a.tokens.map (Token.move m), m.place a.location⟩

def Agent.move : Agent → Agent
  | inline l => inline (m.place l)
  | call l target feature arguments =>
    call (m.place l) target feature (arguments.map (List.map (AgentArgument.move m)))

def Quantifier.move (a : Quantifier) : Quantifier :=
  { a with location := m.place a.location, cursor := a.cursor.map (Name.move m) }

def Body.move : Body → Body
  | instructions ts => instructions (ts.map (Token.move m))
  | once keys ts => once keys (ts.map (Token.move m))
  | attributive ts => attributive (ts.map (Token.move m))
  | body => body

def Feature.move (a : Feature) : Feature :=
  { a with
    name := a.name.move m
    parameters := a.parameters.map (Entity.move m)
    returnType := a.returnType.map (TypeRef.move m)
    precondition := a.precondition.map (AssertionBlock.move m)
    postcondition := a.postcondition.map (AssertionBlock.move m)
    locals := a.locals.map (Entity.move m)
    body := a.body.move m
    agents := a.agents.map (Agent.move m)
    quantifiers := a.quantifiers.map (Quantifier.move m)
    innerBlocks := a.innerBlocks.map (AssertionBlock.move m)
    endLocation := m.place a.endLocation }

def Clause.move (a : Clause) : Clause :=
  { a with location := m.place a.location, features := a.features.map (Feature.move m) }

def Invariant.move (a : Invariant) : Invariant :=
  ⟨a.block.move m, a.agents.map (Agent.move m), a.quantifiers.map (Quantifier.move m)⟩

def ClassDecl.move (a : ClassDecl) : ClassDecl :=
  { a with
    name := a.name.move m
    generics := a.generics.map (Name.move m)
    parents := a.parents.map (Name.move m)
    creators := a.creators.map (Name.move m)
    clauses := a.clauses.map (Clause.move m)
    invariant := a.invariant.map (Invariant.move m) }

/-- A tree whose points are somewhere else. -/
def Tree.move (a : Tree) : Tree :=
  { a with classes := a.classes.map (ClassDecl.move m) }

end Definitions

/-! ## 2. The likeness -/

/-- The motion keeps what the grammar looks at, for the points of `s`: columns, and the order of
lines. -/
structure Motion.Steady (m : Motion) (s : Source) : Prop where
  column (l : Location) : (m.place l).column = l.column
  line {l k : Location} : s.Marks l → s.Marks k →
    (l.line < k.line ↔ (m.place l).line < (m.place k).line)

/-- Tokens are written alike wherever they are. -/
theorem renderTokens_of_moved {m : Motion} {ts us : List Token}
    (h : Forall₂ (fun t u => u = t.move m) ts us) : renderTokens ts = renderTokens us := by
  induction h with
  | nil => rfl
  | cons htu hrest ih =>
    subst htu
    cases hrest with
    | nil => rfl
    | cons htu' _ =>
      subst htu'
      rw [renderTokens, renderTokens, ← ih]
      rfl

/-- **A steady motion as a likeness.** -/
def Motion.likeness {m : Motion} {s : Source} (hm : m.Steady s) : Likeness where
  token t u := s.Marks t.location ∧ u = t.move m
  place l k := k = m.place l
  name := Eq
  parent := Eq
  text := Eq
  remark := Eq
  kind_eq h := by rw [h.2]; rfl
  fault_eq h := by rw [h.2]; rfl
  column_eq h := by rw [h.2]; exact (hm.column _).symm
  line_lt_iff h h' := by rw [h.2, h'.2]; exact hm.line h.1 h'.1
  commentText_eq h _ := by rw [h.2]; rfl
  value_eq h _ := by rw [h.2, Token.value_move]
  place_token h := by rw [h.2]; rfl
  name_token h _ := by rw [h.2]; rfl
  name_empty := rfl
  parent_token h _ := by rw [h.2]; rfl
  text_token h := by rw [h.2]; rfl
  text_render h := renderTokens_of_moved (h.imp fun _ _ htu => htu.2)
  text_dot hab hpq := by rw [hab, hpq]
  remark_token h _ := by rw [h.2]; rfl

/-! ## 3. Alike trees are moved trees -/

section Maps

variable {α β : Type} {R : α → β → Prop} (f : α → β)

theorem forall₂_eq_map (hf : ∀ a b, R a b → b = f a) {as : List α} {bs : List β}
    (h : Forall₂ R as bs) : bs = as.map f := by
  induction h with
  | nil => rfl
  | cons hab _ ih => rw [List.map_cons, ← hf _ _ hab, ← ih]

theorem rel_eq_map (hf : ∀ a b, R a b → b = f a) {o : Option α} {o' : Option β}
    (h : Option.Rel R o o') : o' = o.map f := by
  cases h with
  | none => rfl
  | some hab => rw [Option.map_some, ← hf _ _ hab]

omit f in
theorem rel_eq {o o' : Option α} (h : Option.Rel Eq o o') : o' = o := by
  cases h with
  | none => rfl
  | some hab => rw [hab]

end Maps

section Moved

variable {m : Motion} {s : Source} {hm : m.Steady s}

theorem tokens_eq_move {ts us : List Token} (h : Forall₂ (m.likeness hm).token ts us) :
    us = ts.map (Token.move m) :=
  forall₂_eq_map (Token.move m) (fun _ _ htu => htu.2) h

theorem Name.eq_move {a b : Name} (h : Name.Alike (m.likeness hm) Eq a b) : b = a.move m := by
  rw [Name.move, h.text, ← show b.location = m.place a.location from h.location]

theorem TypeRef.eq_move {a b : TypeRef} (h : TypeRef.Alike (m.likeness hm) a b) :
    b = a.move m := by
  rw [TypeRef.move, show a.text = b.text from h.text, h.mark,
    ← show b.location = m.place a.location from h.location]

theorem Entity.eq_move {a b : Entity} (h : Entity.Alike (m.likeness hm) a b) : b = a.move m := by
  rw [Entity.move, ← Name.eq_move h.name, ← TypeRef.eq_move h.type]

theorem Assertion.eq_move {a b : Assertion} (h : Assertion.Alike (m.likeness hm) a b) :
    b = a.move m := by
  rw [Assertion.move, ← rel_eq h.label, ← tokens_eq_move h.expression,
    ← show b.location = m.place a.location from h.location]

theorem AssertionBlock.eq_move {a b : AssertionBlock}
    (h : AssertionBlock.Alike (m.likeness hm) a b) : b = a.move m := by
  rw [AssertionBlock.move, h.kind,
    ← forall₂_eq_map (Assertion.move m) (fun _ _ => Assertion.eq_move) h.assertions, h.extended,
    ← show b.location = m.place a.location from h.location]

theorem AgentArgument.eq_move {a b : AgentArgument} (h : AgentArgument.Alike (m.likeness hm) a b) :
    b = a.move m := by
  rw [AgentArgument.move, ← tokens_eq_move h.tokens,
    ← show b.location = m.place a.location from h.location]

theorem Target.eq_of_alike {a b : Target} (h : Target.Alike (m.likeness hm) a b) : a = b := by
  cases h with
  | implicit => rfl
  | closed text => rw [show _ = _ from text]
  | ofType text => rw [show _ = _ from text]

theorem Agent.eq_move {a b : Agent} (h : Agent.Alike (m.likeness hm) a b) : b = a.move m := by
  cases h with
  | inline location => rw [Agent.move, ← show _ = m.place _ from location]
  | call location target feature arguments =>
    rw [Agent.move, Target.eq_of_alike target, show _ = _ from feature,
      ← show _ = m.place _ from location,
      ← rel_eq_map (List.map (AgentArgument.move m))
        (fun _ _ => forall₂_eq_map (AgentArgument.move m) fun _ _ => AgentArgument.eq_move)
        arguments]

theorem Quantifier.eq_move {a b : Quantifier} (h : Quantifier.Alike (m.likeness hm) a b) :
    b = a.move m := by
  rw [Quantifier.move, ← show b.location = m.place a.location from h.location, h.quantity,
    ← rel_eq_map (Name.move m) (fun _ _ => Name.eq_move) h.cursor, h.hasColon, h.hasBar]

theorem Body.eq_move {a b : Body} (h : Body.Alike (m.likeness hm) a b) : b = a.move m := by
  cases h with
  | instructions tokens => rw [Body.move, ← tokens_eq_move tokens]
  | once keys tokens => rw [Body.move, ← tokens_eq_move tokens]
  | attributive tokens => rw [Body.move, ← tokens_eq_move tokens]
  | absent | deferred | external => rfl

theorem Feature.eq_move {a b : Feature} (h : Feature.Alike (m.likeness hm) a b) :
    b = a.move m := by
  rw [Feature.move, ← Name.eq_move h.name, h.frozen,
    ← forall₂_eq_map (Entity.move m) (fun _ _ => Entity.eq_move) h.parameters,
    ← rel_eq_map (TypeRef.move m) (fun _ _ => TypeRef.eq_move) h.returnType, h.headerComment,
    ← rel_eq_map (AssertionBlock.move m) (fun _ _ => AssertionBlock.eq_move) h.precondition,
    ← rel_eq_map (AssertionBlock.move m) (fun _ _ => AssertionBlock.eq_move) h.postcondition,
    ← forall₂_eq_map (Entity.move m) (fun _ _ => Entity.eq_move) h.locals, ← Body.eq_move h.body,
    ← forall₂_eq_map (Agent.move m) (fun _ _ => Agent.eq_move) h.agents,
    ← forall₂_eq_map (Quantifier.move m) (fun _ _ => Quantifier.eq_move) h.quantifiers,
    ← forall₂_eq_map (AssertionBlock.move m) (fun _ _ => AssertionBlock.eq_move) h.innerBlocks,
    ← show b.endLocation = m.place a.endLocation from h.endLocation]

theorem Clause.eq_move {a b : Clause} (h : Clause.Alike (m.likeness hm) a b) : b = a.move m := by
  have hclients : a.clients = b.clients := List.forall₂_eq_eq_eq ▸ h.clients
  rw [Clause.move, h.kind, ← show b.location = m.place a.location from h.location,
    ← rel_eq h.category, hclients,
    ← forall₂_eq_map (Feature.move m) (fun _ _ => Feature.eq_move) h.features]

theorem Invariant.eq_move {a b : Invariant} (h : Invariant.Alike (m.likeness hm) a b) :
    b = a.move m := by
  rw [Invariant.move, ← AssertionBlock.eq_move h.block,
    ← forall₂_eq_map (Agent.move m) (fun _ _ => Agent.eq_move) h.agents,
    ← forall₂_eq_map (Quantifier.move m) (fun _ _ => Quantifier.eq_move) h.quantifiers]

/-- **Alike classes are moved classes.** -/
theorem ClassDecl.eq_move {a b : ClassDecl} (h : ClassDecl.Alike (m.likeness hm) a b) :
    b = a.move m := by
  rw [ClassDecl.move, ← Name.eq_move h.name, h.kind, h.frozen,
    ← forall₂_eq_map (Name.move m) (fun _ _ => Name.eq_move) h.generics,
    ← forall₂_eq_map (Name.move m) (fun _ _ => Name.eq_move) h.parents,
    ← forall₂_eq_map (Name.move m) (fun _ _ => Name.eq_move) h.creators,
    ← forall₂_eq_map (Clause.move m) (fun _ _ => Clause.eq_move) h.clauses,
    ← rel_eq_map (Invariant.move m) (fun _ _ => Invariant.eq_move) h.invariant]

/-! ## 4. Texts -/

/-- What a message quotes of a token does not say where the token is. -/
theorem SyntaxFault.message_eq {f g : SyntaxFault} (h : SyntaxFault.Alike (m.likeness hm) f g) :
    f.message = g.message := by
  cases h with
  | plain => rfl
  | bareFeature name h => rw [h.2, show _ = _ from name]; rfl
  | expectedKeyword _ h | expectedSymbol _ h | expectedName _ h | unexpected h | unexpectedInClass h
  | unexpectedInInheritance h | expectedFeature h | expectedConstant h | expectedAnchor h
  | expectedType h | expectedBody h | unexpectedAfterEnd h | agentWithoutFeature h =>
    rw [h.2]
    rfl

end Moved

/-- **Moving the tokens of a text moves what is read from them.** -/
theorem parse_moved {m : Motion} {s r : Source} (hm : m.Steady s) (hpath : r.path = s.path)
    (htokens : r.lex.tokens = s.lex.tokens.map (Token.move m)) :
    r.lex.parse.recoveries = s.lex.parse.recoveries ∧
      r.lex.parse.diagnostics = s.lex.parse.diagnostics.map (Diagnostic.move m) ∧
      r.lex.parse.tree = s.lex.parse.tree.move m := by
  have halike : Forall₂ (m.likeness hm).token s.lex.tokens r.lex.tokens := by
    rw [htokens, List.forall₂_map_right_iff]
    exact List.forall₂_same.mpr fun t ht => ⟨Source.marks_token ht, rfl⟩
  have hpaths : r.lex.parse.tree.path = s.lex.parse.tree.path := hpath
  obtain ⟨hclasses, herrors, hresumed⟩ := parse_alike halike
  refine ⟨hresumed.length_eq.symm, ?_, ?_⟩
  · unfold Parsed.diagnostics
    rw [List.map_map, hpaths]
    refine (forall₂_map_eq (fun e f hef => ?_) herrors).symm
    simp only [Function.comp_apply, Diagnostic.move, SyntaxFault.message_eq hef.fault]
    rw [show f.location = m.place e.location from hef.location]
  · rw [Tree.move, ← forall₂_eq_map (ClassDecl.move m) (fun _ _ => ClassDecl.eq_move) hclasses,
      ← hpaths]

end ContractLint
