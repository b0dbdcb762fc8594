/-
# Reading S-expressions back

A reader of S-expressions in one pass over the code points.  It keeps the items of the lists that are
open and what it is in: a bare run, a text, or the letter of an escape.  A bare run is pending
(`Scanner`): it lasts up to a space, a bracket, a quote or the end of the input, and only then is it a
symbol or a number.

Not every expression can be read back.  A symbol is written without quotes, so a symbol that is empty,
that looks like a number or that holds a space is read as something else.  `Readable` excludes these.

* `Reads.space`, `Reads.list`: how what is read of pieces makes up what is read of a whole;
* `reads_render`: a readable expression, as it is written, is read as that expression;
* `read_render`: so on readable expressions the reader undoes `render`.
-/
import ContractLint.Proofs.Numeral
import ContractLint.Proofs.Scanner
import ContractLint.Sexp
import ContractLint.Token.Lexeme

namespace ContractLint

open CodePoint (ofChar ofChars)

namespace CodePoint

theorem ofChar_inj {c d : Char} : ofChar c = ofChar d ↔ c = d := by
  constructor
  · intro h
    have hval : (ofChar c).val = (ofChar d).val := by rw [h]
    exact Char.toNat_inj.mp hval
  · exact congrArg ofChar

/-- Characters are no surrogates. -/
theorem isSurrogate_ofChar (c : Char) : isSurrogate (ofChar c) = false := by
  have hvalid : c.toNat.isValidChar := c.valid
  have hdecide : isSurrogate (ofChar c) = (decide (0xd800 ≤ c.toNat) && decide (c.toNat ≤ 0xdfff)) :=
    rfl
  simp only [Nat.isValidChar] at hvalid
  rw [hdecide, Bool.and_eq_false_iff, decide_eq_false_iff_not, decide_eq_false_iff_not]
  omega

theorem toString?_ofString (s : String) : toString? (ofString s) = some s := by
  have hnone : ¬ (ofString s).any isSurrogate = true := by
    simp [ofString, ofChars, isSurrogate_ofChar]
  have hback : ((fun p : CodePoint => Char.ofNat p.val) ∘ ofChar) = id := by
    funext c
    exact Char.ofNat_toNat c
  rw [toString?, if_neg hnone, ofString, ofChars, List.map_map, hback, List.map_id,
    String.ofList_toList]

end CodePoint

namespace Sexp

/-! ## 1. The reader -/

/-- The expression that a bare run spells. -/
def atom? (run : List CodePoint) : Option Sexp :=
  (CodePoint.toString? run).map fun name =>
    match Numeral.decimal? name.toList with
    | some n => number n
    | none => symbol name

/-- The escapes of texts: letters, and what they stand for. -/
def escapes : List (Char × Char) :=
  [('\\', '\\'), ('"', '"'), ('b', '\x08'), ('f', '\x0c'), ('n', '\n'), ('r', '\r'), ('t', '\t')]

/-- The code point that a letter stands for behind a backslash. -/
def unescape? (p : CodePoint) : Option CodePoint :=
  (escapes.find? fun e => ofChar e.1 == p).map fun e => ofChar e.2

/-- Whether a bare run ends in front of a code point. -/
def isDelimiter (p : CodePoint) : Bool :=
  p == ofChar ' ' || p == ofChar '(' || p == ofChar ')' || p == ofChar '"'

/-- What a reader is in, and what of it was read. -/
inductive Mode where
  | between
  | bare (run : List CodePoint)
  | text (points : List CodePoint)
  /-- Behind a backslash in a text. -/
  | escape (points : List CodePoint)

/-- How far an input was read. -/
structure Reader where
  /-- The items of the lists around the innermost one, from the inside out. -/
  outer : List (List Sexp)
  /-- The items of the innermost list. -/
  items : List Sexp
  mode : Mode := .between

namespace Reader

def add (r : Reader) (e : Sexp) : Reader :=
  ⟨r.outer, r.items ++ [e], .between⟩

/-- Ends a bare run. -/
def finish (r : Reader) : Option Reader :=
  match r.mode with
  | .between => some r
  | .bare run => (atom? run).map r.add
  | .text _ | .escape _ => none

/-- Reads a code point outside texts and bare runs. -/
def start (r : Reader) (p : CodePoint) : Option Reader :=
  if p = ofChar ' ' then some r
  else if p = ofChar '(' then some ⟨r.items :: r.outer, [], .between⟩
  else if p = ofChar ')' then
    match r.outer with
    | [] => none
    | items :: outer => some ⟨outer, items ++ [.list r.items], .between⟩
  else if p = ofChar '"' then some { r with mode := .text [] }
  else some { r with mode := .bare [p] }

/-- Reads a code point. -/
def step (r : Reader) (p : CodePoint) : Option Reader :=
  match r.mode with
  | .between => r.start p
  | .bare run =>
    if isDelimiter p then r.finish.bind (·.start p) else some { r with mode := .bare (run ++ [p]) }
  | .text points =>
    if p = ofChar '"' then some (r.add (.text points))
    else if p = ofChar '\\' then some { r with mode := .escape points }
    else some { r with mode := .text (points ++ [p]) }
  | .escape points => (unescape? p).map fun q => { r with mode := .text (points ++ [q]) }

section Steps

variable (outer : List (List Sexp)) (items : List Sexp) (read : List CodePoint) (p : CodePoint)

theorem step_bare : step ⟨outer, items, .bare read⟩ p =
    if isDelimiter p then (finish ⟨outer, items, .bare read⟩).bind (·.start p)
    else some ⟨outer, items, .bare (read ++ [p])⟩ := rfl

theorem step_text : step ⟨outer, items, .text read⟩ p =
    if p = ofChar '"' then some ⟨outer, items ++ [.text read], .between⟩
    else if p = ofChar '\\' then some ⟨outer, items, .escape read⟩
    else some ⟨outer, items, .text (read ++ [p])⟩ := rfl

theorem step_escape : step ⟨outer, items, .escape read⟩ p =
    (unescape? p).map fun q => ⟨outer, items, .text (read ++ [q])⟩ := rfl

end Steps

/-- Behind what is finished, an expression may start. -/
theorem mode_of_finish {r s : Reader} (h : r.finish = some s) : s.mode = .between := by
  obtain ⟨outer, items, mode⟩ := r
  cases mode with
  | between =>
    cases h
    rfl
  | bare run =>
    obtain ⟨e, -, rfl⟩ := Option.map_eq_some_iff.mp h
    rfl
  | text => cases h
  | escape => cases h

end Reader

/-- The reader. -/
def reader : Scanner CodePoint Reader where
  step := Reader.step
  finish := Reader.finish
  delimits := isDelimiter
  finish_finish {r s} h := by
    rw [Reader.finish, Reader.mode_of_finish h]
  step_of_finish {r s p} h hp := by
    have hstart : s.step p = s.start p := by
      rw [Reader.step, Reader.mode_of_finish h]
    rw [hstart]
    obtain ⟨outer, items, mode⟩ := r
    cases mode with
    | between =>
      cases h
      rfl
    | bare run => rw [Reader.step_bare, if_pos hp, h, Option.bind_some]
    | text => cases h
    | escape => cases h

/-- The expression that code points spell. -/
def read (ps : List CodePoint) : Option Sexp :=
  match reader.scan ⟨[], [], .between⟩ ps with
  | some ⟨[], [e], _⟩ => some e
  | _ => none

/-! ## 2. Pieces of an input -/

/-- Wherever an expression may start, `ps` is read as the items `es`. -/
def Reads (ps : List CodePoint) (es : List Sexp) : Prop :=
  ∀ outer items, reader.scan ⟨outer, items, .between⟩ ps = some ⟨outer, items ++ es, .between⟩

namespace Reads

variable {ps qs : List CodePoint} {es fs : List Sexp}

theorem nil : Reads [] [] := by
  intro outer items
  rw [List.append_nil]
  rfl

/-- Items with a space between them. -/
theorem space (hps : Reads ps es) (hqs : Reads qs fs) :
    Reads (ps ++ ofChar ' ' :: qs) (es ++ fs) := by
  intro outer items
  have hspace : reader.step ⟨outer, items ++ es, .between⟩ (ofChar ' ') =
      some ⟨outer, items ++ es, .between⟩ := rfl
  have hdelimits : reader.delimits (ofChar ' ') = true := rfl
  rw [Scanner.scan_append (hps outer items) (by simpa using hdelimits),
    Scanner.scan_cons_of_step hspace, hqs, List.append_assoc]

/-- Items in brackets. -/
theorem list (h : Reads ps es) : Reads (ofChar '(' :: ps ++ [ofChar ')']) [.list es] := by
  intro outer items
  have hopen : reader.step ⟨outer, items, .between⟩ (ofChar '(') =
      some ⟨items :: outer, [], .between⟩ := rfl
  have hclose : reader.step ⟨items :: outer, es, .between⟩ (ofChar ')') =
      some ⟨outer, items ++ [.list es], .between⟩ := rfl
  have hdelimits : reader.delimits (ofChar ')') = true := rfl
  rw [List.cons_append, Scanner.scan_cons_of_step hopen,
    Scanner.scan_append (h (items :: outer) []) (by simpa using hdelimits), List.nil_append,
    Scanner.scan_cons_of_step hclose]
  rfl

end Reads

/-! ## 3. Atoms -/

/-- Whether `c` may stand in a bare run that is written. -/
def isBare (c : Char) : Bool :=
  Lexeme.isWordTail c || c == '-'

theorem not_isDelimiter {c : Char} (h : isBare c = true) : isDelimiter (ofChar c) = false := by
  have hne : ∀ d : Char, isBare d = false → (ofChar c == ofChar d) = false := by
    intro d hd
    refine beq_eq_false_iff_ne.mpr fun heq => ?_
    rw [CodePoint.ofChar_inj.mp heq, hd] at h
    cases h
  simp only [isDelimiter, Bool.or_eq_false_iff]
  exact ⟨⟨⟨hne ' ' rfl, hne '(' rfl⟩, hne ')' rfl⟩, hne '"' rfl⟩

/-- A bare run is read as the expression that it spells. -/
theorem reads_bare {cs : List Char} (hne : cs ≠ []) (h : ∀ c ∈ cs, isBare c = true) {e : Sexp}
    (hatom : atom? (ofChars cs) = some e) : Reads (ofChars cs) [e] := by
  intro outer items
  obtain ⟨c, cs, rfl⟩ := List.exists_cons_of_ne_nil hne
  obtain ⟨hc, hcs⟩ := List.forall_mem_cons.mp h
  have hdelimiter := not_isDelimiter hc
  simp only [isDelimiter, Bool.or_eq_false_iff, beq_eq_false_iff_ne] at hdelimiter
  obtain ⟨⟨⟨hspace, hopen⟩, hclose⟩, hquote⟩ := hdelimiter
  have hstart : reader.step ⟨outer, items, .between⟩ (ofChar c) =
      some ⟨outer, items, .bare [ofChar c]⟩ := by
    show Reader.start _ _ = _
    rw [Reader.start, if_neg hspace, if_neg hopen, if_neg hclose, if_neg hquote]
  have hfinish : reader.finish ⟨outer, items, .bare (ofChars (c :: cs))⟩ =
      (atom? (ofChars (c :: cs))).map (Reader.add ⟨outer, items, .bare (ofChars (c :: cs))⟩) := rfl
  rw [hatom] at hfinish
  have hrun : reader.run ⟨outer, items, .bare [ofChar c]⟩ (ofChars cs) =
      some ⟨outer, items, .bare ([ofChar c] ++ ofChars cs)⟩ := by
    refine reader.run_collect (fun read => ⟨outer, items, .bare read⟩) ?_ [ofChar c]
    refine List.forall_mem_map.mpr fun d hd read => ?_
    refine (Reader.step_bare outer items read _).trans (if_neg ?_)
    rw [not_isDelimiter (hcs d hd)]
    exact Bool.false_ne_true
  rw [ofChars, List.map_cons, Scanner.scan_cons_of_step hstart, Scanner.scan, ← ofChars, hrun,
    Option.bind_some]
  exact hfinish

theorem reads_number (n : Int) : Reads (number n).render [number n] := by
  refine reads_bare (Numeral.toString_ne_nil n) (fun c hc => ?_) ?_
  · have hsign := Numeral.isSign_of_mem_toString hc
    simp only [Numeral.isSign, Bool.or_eq_true] at hsign
    simp only [isBare, Lexeme.isWordTail, Char.isAlphanum, Bool.or_eq_true]
    exact hsign.imp_left fun hdigit => .inl (.inr hdigit)
  · rw [atom?, ← CodePoint.ofString, CodePoint.toString?_ofString, Option.map_some,
      Numeral.decimal?_toString]

/-- Whether a symbol is written as a word, hyphens included. -/
def isSymbolName : List Char → Bool
  | [] => false
  | c :: cs => c.isAlpha && cs.all isBare

theorem reads_symbol {name : String} (h : isSymbolName name.toList = true) :
    Reads (symbol name).render [symbol name] := by
  obtain ⟨c, cs, hcs⟩ : ∃ c cs, name.toList = c :: cs := by
    cases hcs : name.toList with
    | nil => simp [hcs, isSymbolName] at h
    | cons c cs => exact ⟨c, cs, rfl⟩
  rw [hcs, isSymbolName, Bool.and_eq_true, List.all_eq_true] at h
  obtain ⟨hc, htail⟩ := h
  have hfirst : isBare c = true := by simp [isBare, Lexeme.isWordTail, Char.isAlphanum, hc]
  -- A letter in front excludes a number.
  have hdecimal : Numeral.decimal? name.toList = none := by
    have hdigit : c.isDigit = false := by
      simp only [Char.isAlpha, Char.isUpper, Char.isLower, Char.isDigit] at hc ⊢
      grind
    rw [hcs, Numeral.decimal?]
    · simp [Numeral.natural?, hdigit]
    · rintro ds ⟨rfl, -⟩
      cases hc
  refine reads_bare (by rw [hcs]; exact List.cons_ne_nil c cs) ?_ ?_
  · rw [hcs]
    exact List.forall_mem_cons.mpr ⟨hfirst, htail⟩
  · rw [atom?, ← CodePoint.ofString, CodePoint.toString?_ofString, Option.map_some, hdecimal]

/-! ## 4. Texts -/

/-- The letter of an escape is read as what is escaped. -/
theorem unescape?_of_escapeLetter? {p : CodePoint} {letter : Char}
    (h : escapeLetter? p = some letter) : unescape? (ofChar letter) = some p := by
  unfold escapeLetter? at h
  repeat' split at h
  all_goals cases h
  all_goals
    subst ‹p = _›
    rfl

/-- What is not escaped neither ends a text nor starts an escape. -/
theorem ne_of_escapeLetter?_eq_none {p : CodePoint} (h : escapeLetter? p = none) :
    p ≠ ofChar '"' ∧ p ≠ ofChar '\\' := by
  constructor <;> rintro rfl <;> cases h

/-- Each code point of a text is read back from how it is shown. -/
theorem run_shown (outer : List (List Sexp)) (items : List Sexp) (read : List CodePoint)
    (p : CodePoint) :
    reader.run ⟨outer, items, .text read⟩ (shown p) =
      some ⟨outer, items, .text (read ++ [p])⟩ := by
  unfold shown
  split
  · rename_i letter hletter
    have hbackslash : reader.step ⟨outer, items, .text read⟩ (ofChar '\\') =
        some ⟨outer, items, .escape read⟩ := rfl
    have hstep : reader.step ⟨outer, items, .escape read⟩ (ofChar letter) =
        some ⟨outer, items, .text (read ++ [p])⟩ := by
      refine (Reader.step_escape outer items read _).trans ?_
      rw [unescape?_of_escapeLetter? hletter, Option.map_some]
    rw [Scanner.run_cons, hbackslash, Option.bind_some, Scanner.run_cons, hstep]
    rfl
  · rename_i hnone
    obtain ⟨hquote, hbackslash⟩ := ne_of_escapeLetter?_eq_none hnone
    have hstep : reader.step ⟨outer, items, .text read⟩ p =
        some ⟨outer, items, .text (read ++ [p])⟩ := by
      refine (Reader.step_text outer items read p).trans ?_
      rw [if_neg hquote, if_neg hbackslash]
    rw [Scanner.run_cons, hstep]
    rfl

theorem reads_text (points : List CodePoint) : Reads (text points).render [text points] := by
  intro outer items
  have hopen : reader.step ⟨outer, items, .between⟩ (ofChar '"') =
      some ⟨outer, items, .text []⟩ := rfl
  have hclose : reader.step ⟨outer, items, .text points⟩ (ofChar '"') =
      some ⟨outer, items ++ [text points], .between⟩ := rfl
  have hinside : reader.run ⟨outer, items, .text []⟩ (points.flatMap shown) =
      some ⟨outer, items, .text points⟩ :=
    reader.run_flatMap (fun read => ⟨outer, items, .text read⟩)
      (fun p _ read => run_shown outer items read p) []
  rw [render, List.cons_append, Scanner.scan_cons_of_step hopen, Scanner.scan_append_of_run hinside,
    Scanner.scan_cons_of_step hclose]
  rfl

/-! ## 5. Expressions -/

/-- An expression whose symbols are words. -/
inductive Readable : Sexp → Prop
  | symbol {name : String} (h : isSymbolName name.toList = true) : Readable (symbol name)
  | number (n : Int) : Readable (number n)
  | text (points : List CodePoint) : Readable (text points)
  | list {items : List Sexp} (h : ∀ e ∈ items, Readable e) : Readable (list items)

theorem reads_renderItems {es : List Sexp} (h : ∀ e ∈ es, Reads e.render [e]) :
    Reads (renderItems es) es := by
  induction es with
  | nil => exact .nil
  | cons e es ih =>
    obtain ⟨he, hes⟩ := List.forall_mem_cons.mp h
    cases es with
    | nil =>
      rw [renderItems]
      exact he
    | cons f fs =>
      rw [renderItems]
      · exact he.space (ih hes)
      · exact List.cons_ne_nil f fs

/-- **A readable expression, as it is written, is read as that expression.** -/
theorem reads_render {e : Sexp} (h : e.Readable) : Reads e.render [e] := by
  induction h with
  | symbol h => exact reads_symbol h
  | number n => exact reads_number n
  | text points => exact reads_text points
  | list h ih =>
    rw [render]
    exact (reads_renderItems ih).list

theorem read_render {e : Sexp} (h : e.Readable) : read e.render = some e := by
  rw [read, reads_render h [] []]
  rfl

/-- A symbol that looks like a number is not read as a symbol. -/
example : read (symbol "12").render = some (number 12) := by
  cbv

end Sexp

end ContractLint
