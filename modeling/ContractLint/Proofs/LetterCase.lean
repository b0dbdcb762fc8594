/-
# Letter case

A keyword may be written in any letter case.  What was written stays in the token's text, and from
there it gets into the tree: into the tokens of bodies and expressions, the texts of types and of
agent targets, and the names of parents, for which `tuple` may stand.  Nothing else of a tree can
show it, and nothing that is decided on the way can depend on it.

`letterCase` is the likeness of two texts that differ in the letter case of keywords alone.  Its
names, places and comments are EQUAL, and what it lets differ is copied token by token from the two
texts (`CopiedText`), so for trees it says exactly that.  `parse_letter_case` is the result for
texts: it asks only that the tokens agree up to letter case, since equal spellings make equal
keywords (`sameWord_of_recased`).
-/
import ContractLint.Proofs.LikeReadings
import ContractLint.Proofs.Spelling
import Mathlib

namespace ContractLint

open List (Forall₂)

/-! ## 1. Words -/

/-- Keywords at one place that are written alike up to letter case. -/
structure Token.Recased (t u : Token) : Prop where
  left : ∃ v, t.kind = .keyword v
  right : ∃ w, u.kind = .keyword w
  lowered : t.lowered = u.lowered
  location : t.location = u.location
  segments : t.segments = u.segments
  fault : t.fault = u.fault

/-- Tokens that are equal, or spellings of one keyword at one place. -/
inductive Token.SameWord : Token → Token → Prop
  | same (t : Token) : SameWord t t
  | keyword (t : Token) (text : String) (w : Keyword) (hkind : t.kind = .keyword w)
      (ht : Keyword.ofText? t.text.toList = some w) (hu : Keyword.ofText? text.toList = some w) :
      SameWord t { t with text := text }

/-- **In lexed texts, keywords that agree up to letter case are the same keyword.** -/
theorem sameWord_of_recased {s r : Source} {t u : Token} (ht : t ∈ s.lex.tokens)
    (hu : u ∈ r.lex.tokens) (h : t.Recased u) : t.SameWord u := by
  obtain ⟨⟨v, hv⟩, ⟨w, hw⟩, hlowered, hlocation, hsegments, hfault⟩ := h
  have htext := Source.ofText?_of_keyword t ht hv
  have hutext := Source.ofText?_of_keyword u hu hw
  have hvw : some v = some w := by
    calc some v = Keyword.ofWord? t.lowered := htext.symm
      _ = Keyword.ofWord? u.lowered := by rw [hlowered]
      _ = some w := hutext
  obtain rfl := Option.some.inj hvw
  obtain ⟨kind, text, location, segments, fault⟩ := u
  dsimp only at hw hlocation hsegments hfault hutext
  subst hw hlocation hsegments hfault
  rw [← hv]
  exact .keyword t text v hv htext hutext

namespace Token.SameWord

variable {t u : Token}

theorem kind_eq (h : t.SameWord u) : t.kind = u.kind := by
  cases h <;> rfl

theorem location_eq (h : t.SameWord u) : t.location = u.location := by
  cases h <;> rfl

theorem fault_eq (h : t.SameWord u) : t.fault = u.fault := by
  cases h <;> rfl

/-- Only keywords may be spelled in two ways. -/
theorem eq_of_kind (h : t.SameWord u) (hkind : ∀ w, t.kind ≠ .keyword w) : t = u := by
  cases h with
  | same => rfl
  | keyword text w hw => exact absurd hw (hkind w)

end Token.SameWord

/-! ## 2. The likeness -/

section

variable (s r : Source)

/-- Tokens of two texts that are equal, or spellings of one keyword at one place. -/
structure Token.Respelled (t u : Token) : Prop where
  left : t ∈ s.lex.tokens
  right : u ∈ r.lex.tokens
  word : t.SameWord u

/-- Texts that are copied from tokens of two texts, token by token: from one token, from a run of
them, or from a query and a feature with a dot between them. -/
inductive CopiedText : String → String → Prop
  | token {t u : Token} (h : Token.Respelled s r t u) : CopiedText t.text u.text
  | run {ts us : List Token} (h : Forall₂ (Token.Respelled s r) ts us) :
      CopiedText (renderTokens ts) (renderTokens us)
  | dotted {a b p q : String} (hab : CopiedText a b) (hpq : CopiedText p q) :
      CopiedText (a ++ "." ++ p) (b ++ "." ++ q)

/-- **Letter case as a likeness** of two texts. -/
def letterCase : Likeness where
  token := Token.Respelled s r
  place := Eq
  name := Eq
  parent a b := ∃ t u, Token.Respelled s r t u ∧ a = t.text ∧ b = u.text
  text := CopiedText s r
  remark := Eq
  kind_eq h := h.word.kind_eq
  fault_eq h := h.word.fault_eq
  column_eq h := congrArg Location.column h.word.location_eq
  line_lt_iff h h' := by
    rw [Token.line, Token.line, h.word.location_eq, h'.word.location_eq]
    rfl
  commentText_eq h hkind := by rw [h.word.eq_of_kind (by simp [hkind])]
  value_eq h hkind := by rw [h.word.eq_of_kind (by simp [hkind])]
  place_token h := h.word.location_eq
  name_token h hkind := by rw [h.word.eq_of_kind (by simp [hkind])]
  name_empty := rfl
  parent_token h _ := ⟨_, _, h, rfl, rfl⟩
  text_token h := .token h
  text_render h := .run h
  text_dot hab hpq := .dotted hab hpq
  remark_token h hkind := by rw [h.word.eq_of_kind (by simp [hkind])]

end

/-- **Letter case of keywords does not change the reading.**  Texts whose tokens agree up to the
letter case of keywords are read with the same number of resumptions, with diagnostics at the same
locations in the same order, and into trees that are equal up to the letter case of keywords in
tokens, in the texts of types and agent targets and in the names of parents. -/
theorem parse_letter_case (a b path : String)
    (h : Forall₂ (fun t u => t = u ∨ t.Recased u) (Source.ofString a path).lex.tokens
      (Source.ofString b path).lex.tokens) :
    let s := Source.ofString a path
    let r := Source.ofString b path
    let p := s.lex.parse
    let q := r.lex.parse
    p.recoveries = q.recoveries ∧
      p.diagnostics.map (·.location) = q.diagnostics.map (·.location) ∧
      p.tree.path = q.tree.path ∧
      Forall₂ (ClassDecl.Alike (letterCase s r)) p.tree.classes q.tree.classes := by
  intro s r p q
  obtain ⟨hlength, hzip⟩ := List.forall₂_iff_zip.mp h
  have htokens : Forall₂ (letterCase s r).token s.lex.tokens r.lex.tokens := by
    refine List.forall₂_iff_zip.mpr ⟨hlength, fun {t u} htu => ?_⟩
    obtain ⟨ht, hu⟩ := List.of_mem_zip htu
    refine ⟨ht, hu, ?_⟩
    rcases hzip htu with rfl | hrecased
    · exact .same t
    · exact sameWord_of_recased ht hu hrecased
  obtain ⟨hclasses, herrors, hresumed⟩ := parse_alike htokens
  refine ⟨hresumed.length_eq, ?_, rfl, hclasses⟩
  unfold Parsed.diagnostics
  rw [List.map_map, List.map_map]
  exact forall₂_map_eq (fun e f hef => hef.location) herrors

/-- The tokens of a short class with four of its keywords spelled as given. -/
def sampleTokens (header clause parent type : String) : List Token :=
  [{ kind := .keyword .kwClass, text := header, location := ⟨1, 1, 0⟩ },
    { kind := .identifier, text := "A", location := ⟨1, 7, 6⟩ },
    { kind := .keyword .kwInherit, text := clause, location := ⟨1, 9, 8⟩ },
    { kind := .keyword .kwTuple, text := parent, location := ⟨1, 17, 16⟩ },
    { kind := .keyword .kwFeature, text := "feature", location := ⟨1, 23, 22⟩ },
    { kind := .identifier, text := "f", location := ⟨1, 31, 30⟩ },
    { kind := .operator .colon, text := ":", location := ⟨1, 32, 31⟩ },
    { kind := .keyword .kwLike, text := type, location := ⟨1, 34, 33⟩ },
    { kind := .identifier, text := "x", location := ⟨1, 39, 38⟩ },
    { kind := .eof, text := "", location := ⟨1, 40, 39⟩ }]

/-- A class with a parent and a type, and without its `end`. -/
theorem parse_letter_case_sample :
    let s := Source.ofString "class A inherit tuple feature f: like x" "a.e"
    let r := Source.ofString "CLASS A Inherit TUPLE feature f: Like x" "a.e"
    let p := s.lex.parse
    let q := r.lex.parse
    p.recoveries = q.recoveries ∧
      p.diagnostics.map (·.location) = q.diagnostics.map (·.location) ∧
      p.tree.path = q.tree.path ∧
      Forall₂ (ClassDecl.Alike (letterCase s r)) p.tree.classes q.tree.classes := by
  refine parse_letter_case _ _ "a.e" ?_
  have hx : (Source.ofString "class A inherit tuple feature f: like x" "a.e").lex.tokens =
      sampleTokens "class" "inherit" "tuple" "like" := by
    cbv
  have hy : (Source.ofString "CLASS A Inherit TUPLE feature f: Like x" "a.e").lex.tokens =
      sampleTokens "CLASS" "Inherit" "TUPLE" "Like" := by
    cbv
  have hword {w : Keyword} {a b : String} {l : Location}
      (h : a.toList.map Char.toLower = b.toList.map Char.toLower) :
      Token.Recased { kind := .keyword w, text := a, location := l }
        { kind := .keyword w, text := b, location := l } :=
    ⟨⟨w, rfl⟩, ⟨w, rfl⟩, congrArg String.ofList h, rfl, rfl, rfl⟩
  rw [hx, hy]
  exact .cons (.inr (hword (by decide))) (.cons (.inl rfl) (.cons (.inr (hword (by decide)))
    (.cons (.inr (hword (by decide))) (.cons (.inl rfl) (.cons (.inl rfl) (.cons (.inl rfl)
    (.cons (.inr (hword (by decide))) (.cons (.inl rfl) (.cons (.inl rfl) .nil)))))))))

end ContractLint
