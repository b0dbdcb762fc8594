/-
# Reading JSON

A reader of JSON in two steps.  The lexer turns characters into signs; literals and numbers are
pending until something else comes (`Scanner`).  The grammar goes through the signs with a stack of
what is open, so it needs no bound on nesting.  Numbers are integers, the only ones that reports have.

Strings are where the two steps have work to do.  An escape `\u` spells a unit of UTF-16, so a
character beyond the basic plane takes two of them, and between them the lexer holds the first half.
A half without its other half is no string.

* `lexes_string`: a text, as a report writes it, is read as that text, whatever its characters;
* `Parses.array`, `Parses.object`: signs of parts, joined by commas, are the sign of the whole.
-/
import ContractLint.Proofs.EscapeGrammar
import ContractLint.Proofs.Numeral
import ContractLint.Proofs.Scanner
import ContractLint.Report.Json

namespace ContractLint

/-- A value of JSON. -/
inductive Json where
  | null
  | bool (b : Bool)
  | number (n : Int)
  | text (s : String)
  | array (items : List Json)
  | object (members : List (String × Json))
deriving Inhabited

namespace Json

/-! ## 1. The lexer -/

/-- A sign of JSON; a scalar is a sign of its own. -/
inductive Sign where
  | openArray
  | closeArray
  | openObject
  | closeObject
  | comma
  | colon
  | scalar (v : Json)

/-- The sign that a character is. -/
def Sign.ofChar? (c : Char) : Option Sign :=
  if c = '[' then some openArray
  else if c = ']' then some closeArray
  else if c = '\x7b' then some openObject
  else if c = '\x7d' then some closeObject
  else if c = ',' then some comma
  else if c = ':' then some colon
  else none

/-- The scalar that a bare run spells. -/
def literal? (run : List Char) : Option Json :=
  if run = "null".toList then some null
  else if run = "true".toList then some (bool true)
  else if run = "false".toList then some (bool false)
  else (Numeral.decimal? run).map number

/-- The character that a letter stands for behind a backslash. -/
def unescape? (c : Char) : Option Char :=
  if c = '"' ∨ c = '\\' ∨ c = '/' then some c
  else if c = 'b' then some '\x08'
  else if c = 'f' then some '\x0c'
  else if c = 'n' then some '\n'
  else if c = 'r' then some '\r'
  else if c = 't' then some '\t'
  else none

/-- Whether `c` stands in literals and numbers. -/
def isBare (c : Char) : Bool :=
  c.isAlphanum || c == '-' || c == '+' || c == '.'

/-- Whether `c` may stand between signs. -/
def isSpace (c : Char) : Bool :=
  c == ' ' || c == '\n' || c == '\r' || c == '\t'

/-- What a lexer is in, and what of it was read. -/
inductive Mode where
  | between
  | bare (run : List Char)
  /-- In a string; `high` is the first half of a pair of surrogates. -/
  | text (read : List Char) (high : Option Nat)
  | escape (read : List Char) (high : Option Nat)
  /-- In the hexadecimal digits of a unit; `left` of them are to come. -/
  | unit (read : List Char) (high : Option Nat) (value left : Nat)

namespace Mode

/-- A character of a string. -/
def char? (read : List Char) (high : Option Nat) (c : Char) : Option Mode :=
  if high.isNone then some (text (read ++ [c]) none) else none

/-- A unit of a string. -/
def unit? (read : List Char) (high : Option Nat) (u : Nat) : Option Mode :=
  match high with
  | some h =>
    if 0xdc00 ≤ u ∧ u ≤ 0xdfff then
      let n := 0x10000 + (h - 0xd800) * 0x400 + (u - 0xdc00)
      some (text (read ++ [Char.ofNat n]) none)
    else none
  | none =>
    if 0xd800 ≤ u ∧ u ≤ 0xdbff then some (text read (some u))
    else if 0xdc00 ≤ u ∧ u ≤ 0xdfff then none
    else some (text (read ++ [Char.ofNat u]) none)

end Mode

/-- How far an input was read. -/
structure Lexer where
  signs : List Sign
  mode : Mode := .between

namespace Lexer

def emit (l : Lexer) (sign : Sign) : Lexer :=
  ⟨l.signs ++ [sign], .between⟩

/-- Ends a bare run. -/
def finish (l : Lexer) : Option Lexer :=
  match l.mode with
  | .between => some l
  | .bare run => (literal? run).map fun v => l.emit (.scalar v)
  | _ => none

/-- Reads a character between signs. -/
def start (l : Lexer) (c : Char) : Option Lexer :=
  if isSpace c then some l
  else if c = '"' then some { l with mode := .text [] none }
  else if isBare c then some { l with mode := .bare [c] }
  else (Sign.ofChar? c).map l.emit

/-- Reads a character. -/
def step (l : Lexer) (c : Char) : Option Lexer :=
  match l.mode with
  | .between => l.start c
  | .bare run =>
    if isBare c then some { l with mode := .bare (run ++ [c]) } else l.finish.bind (·.start c)
  | .text read high =>
    if c = '"' then
      if high.isNone then some (l.emit (.scalar (.text (String.ofList read)))) else none
    else if c = '\\' then some { l with mode := .escape read high }
    else if c < ' ' then none
    else (Mode.char? read high c).map fun mode => { l with mode := mode }
  | .escape read high =>
    if c = 'u' then some { l with mode := .unit read high 0 4 }
    else ((unescape? c).bind (Mode.char? read high)).map fun mode => { l with mode := mode }
  | .unit read high value left =>
    (hexValue? c).bind fun d =>
      if left ≤ 1 then
        (Mode.unit? read high (16 * value + d)).map fun mode => { l with mode := mode }
      else some { l with mode := .unit read high (16 * value + d) (left - 1) }

section Steps

variable (signs : List Sign) (run read : List Char) (high : Option Nat) (value left : Nat)
  (c : Char)

theorem step_bare : step ⟨signs, .bare run⟩ c =
    if isBare c then some ⟨signs, .bare (run ++ [c])⟩
    else (finish ⟨signs, .bare run⟩).bind (·.start c) := rfl

theorem step_text : step ⟨signs, .text read high⟩ c =
    if c = '"' then
      if high.isNone then some ⟨signs ++ [.scalar (.text (String.ofList read))], .between⟩ else none
    else if c = '\\' then some ⟨signs, .escape read high⟩
    else if c < ' ' then none
    else (Mode.char? read high c).map fun mode => ⟨signs, mode⟩ := rfl

theorem step_escape : step ⟨signs, .escape read high⟩ c =
    if c = 'u' then some ⟨signs, .unit read high 0 4⟩
    else ((unescape? c).bind (Mode.char? read high)).map fun mode => ⟨signs, mode⟩ := rfl

theorem step_unit : step ⟨signs, .unit read high value left⟩ c =
    (hexValue? c).bind fun d =>
      if left ≤ 1 then
        (Mode.unit? read high (16 * value + d)).map fun mode => ⟨signs, mode⟩
      else some ⟨signs, .unit read high (16 * value + d) (left - 1)⟩ := rfl

end Steps

/-- Behind what is finished, a sign may start. -/
theorem mode_of_finish {l k : Lexer} (h : l.finish = some k) : k.mode = .between := by
  obtain ⟨signs, mode⟩ := l
  cases mode with
  | between =>
    cases h
    rfl
  | bare run =>
    obtain ⟨v, -, rfl⟩ := Option.map_eq_some_iff.mp h
    rfl
  | _ => cases h

end Lexer

/-- The lexer. -/
def lexer : Scanner Char Lexer where
  step := Lexer.step
  finish := Lexer.finish
  delimits c := !isBare c
  finish_finish {l k} h := by
    rw [Lexer.finish, Lexer.mode_of_finish h]
  step_of_finish {l k c} h hc := by
    have hstart : k.step c = k.start c := by
      rw [Lexer.step, Lexer.mode_of_finish h]
    rw [hstart]
    obtain ⟨signs, mode⟩ := l
    cases mode with
    | between =>
      cases h
      rfl
    | bare run => rw [Lexer.step_bare, if_neg (by simpa using hc), h, Option.bind_some]
    | _ => cases h

/-! ## 2. The grammar -/

/-- An array or an object that is open. -/
inductive Frame where
  | array (items : List Json)
  | object (members : List (String × Json)) (key : String)

/-- How far signs were read; `outer` is open, from the inside out. -/
inductive Parser where
  | value (outer : List Frame)
  | key (members : List (String × Json)) (outer : List Frame)
  | colon (members : List (String × Json)) (key : String) (outer : List Frame)
  | behind (v : Json) (outer : List Frame)

namespace Parser

/-- Reads a sign where a value has to come, or the end of an array without items. -/
def startValue (outer : List Frame) : Sign → Option Parser
  | .scalar v => some (behind v outer)
  | .openArray => some (value (.array [] :: outer))
  | .openObject => some (key [] outer)
  | .closeArray =>
    match outer with
    | .array [] :: outer => some (behind (.array []) outer)
    | _ => none
  | _ => none

/-- Reads a sign behind a value. -/
def continueWith (v : Json) : List Frame → Sign → Option Parser
  | .array items :: outer, .comma => some (value (.array (items ++ [v]) :: outer))
  | .array items :: outer, .closeArray => some (behind (.array (items ++ [v])) outer)
  | .object members k :: outer, .comma => some (key (members ++ [(k, v)]) outer)
  | .object members k :: outer, .closeObject =>
    some (behind (.object (members ++ [(k, v)])) outer)
  | _, _ => none

/-- Reads a sign. -/
def step : Parser → Sign → Option Parser
  | value outer, sign => startValue outer sign
  | key members outer, .scalar (.text k) => some (colon members k outer)
  | key [] outer, .closeObject => some (behind (.object []) outer)
  | key _ _, _ => none
  | colon members k outer, .colon => some (value (.object members k :: outer))
  | colon _ _ _, _ => none
  | behind v outer, sign => continueWith v outer sign

/-- Reads signs. -/
def run (p : Parser) (signs : List Sign) : Option Parser :=
  signs.foldlM step p

theorem run_cons (p : Parser) (sign : Sign) (signs : List Sign) :
    p.run (sign :: signs) = (p.step sign).bind (·.run signs) :=
  rfl

theorem run_append (p : Parser) (ss ts : List Sign) :
    p.run (ss ++ ts) = (p.run ss).bind (·.run ts) :=
  List.foldlM_append

end Parser

/-- The value that signs spell. -/
def parse (signs : List Sign) : Option Json :=
  match (Parser.value []).run signs with
  | some (.behind v []) => some v
  | _ => none

/-- The value that characters spell. -/
def read (cs : List Char) : Option Json :=
  (lexer.scan ⟨[], .between⟩ cs).bind fun l => parse l.signs

/-! ## 3. Pieces of an input -/

/-- Wherever a sign may start, `cs` is read as the signs `signs`. -/
def Lexes (cs : List Char) (signs : List Sign) : Prop :=
  ∀ before, lexer.scan ⟨before, .between⟩ cs = some ⟨before ++ signs, .between⟩

namespace Lexes

variable {cs ds : List Char} {ss ts : List Sign}

theorem nil : Lexes [] [] := by
  intro before
  rw [List.append_nil]
  rfl

theorem append (hcs : Lexes cs ss) (hds : Lexes ds ts) (h : ∀ c ∈ ds.head?, isBare c = false) :
    Lexes (cs ++ ds) (ss ++ ts) := by
  intro before
  have hdelimits : ∀ c ∈ ds.head?, lexer.delimits c = true := fun c hc => by
    show (!isBare c) = true
    rw [h c hc]
    rfl
  rw [Scanner.scan_append (hcs before) hdelimits, hds, List.append_assoc]

theorem space (h : Lexes cs ss) {c : Char} (hc : isSpace c = true) : Lexes (c :: cs) ss := by
  intro before
  have hstep : lexer.step ⟨before, .between⟩ c = some ⟨before, .between⟩ := if_pos hc
  rw [Scanner.scan_cons_of_step hstep, h]

/-- Spaces and line ends in front of a sign. -/
theorem spaces (h : Lexes cs ss) {front : List Char} (hfront : ∀ c ∈ front, isSpace c = true) :
    Lexes (front ++ cs) ss := by
  induction front with
  | nil => exact h
  | cons c front ih =>
    obtain ⟨hc, hfront⟩ := List.forall_mem_cons.mp hfront
    exact (ih hfront).space hc

theorem sign (h : Lexes cs ss) {c : Char} {sign : Sign} (hc : Sign.ofChar? c = some sign) :
    Lexes (c :: cs) (sign :: ss) := by
  intro before
  have hstep : lexer.step ⟨before, .between⟩ c = some ⟨before ++ [sign], .between⟩ := by
    unfold Sign.ofChar? at hc
    repeat' split at hc
    all_goals cases hc
    all_goals
      subst ‹c = _›
      rfl
  rw [Scanner.scan_cons_of_step hstep, h, List.append_assoc, List.singleton_append]

end Lexes

/-! ## 4. Scalars -/

/-- A bare run is read as the scalar that it spells. -/
theorem lexes_bare {cs : List Char} (hne : cs ≠ []) (h : ∀ c ∈ cs, isBare c = true) {v : Json}
    (hv : literal? cs = some v) : Lexes cs [.scalar v] := by
  intro before
  obtain ⟨c, cs, rfl⟩ := List.exists_cons_of_ne_nil hne
  obtain ⟨hc, hcs⟩ := List.forall_mem_cons.mp h
  have hrun : lexer.run ⟨before, .bare [c]⟩ cs = some ⟨before, .bare ([c] ++ cs)⟩ :=
    lexer.run_collect (fun read => ⟨before, .bare read⟩)
      (fun d hd read => (Lexer.step_bare before read d).trans (if_pos (hcs d hd))) [c]
  have hstart : lexer.step ⟨before, .between⟩ c = some ⟨before, .bare [c]⟩ := by
    have hspace : ¬ isSpace c = true := by
      intro hspace
      simp only [isSpace, Bool.or_eq_true, beq_iff_eq] at hspace
      rcases hspace with ((rfl | rfl) | rfl) | rfl <;> cases hc
    have hquote : c ≠ '"' := by
      rintro rfl
      cases hc
    show Lexer.start _ _ = _
    rw [Lexer.start, if_neg hspace, if_neg hquote, if_pos hc]
  have hfinish : lexer.finish ⟨before, .bare (c :: cs)⟩ =
      (literal? (c :: cs)).map fun v => ⟨before ++ [.scalar v], .between⟩ := rfl
  rw [Scanner.scan_cons_of_step hstart, Scanner.scan, hrun, Option.bind_some,
    List.singleton_append, hfinish, hv, Option.map_some]

theorem lexes_number (n : Int) : Lexes (toString n).toList [.scalar (number n)] := by
  refine lexes_bare (Numeral.toString_ne_nil n) (fun c hc => ?_) ?_
  · have hsign := Numeral.isSign_of_mem_toString hc
    simp only [Numeral.isSign, Bool.or_eq_true] at hsign
    simp only [isBare, Char.isAlphanum, Bool.or_eq_true]
    exact .inl (.inl (hsign.imp_left .inr))
  · -- the words of JSON have letters
    have hword : ∀ word : String, (∃ c ∈ word.toList, Numeral.isSign c = false) →
        (toString n).toList ≠ word.toList := by
      rintro word ⟨c, hc, hletter⟩ heq
      rw [Numeral.isSign_of_mem_toString (heq ▸ hc)] at hletter
      cases hletter
    rw [literal?, if_neg (hword "null" ⟨'n', by decide, rfl⟩),
      if_neg (hword "true" ⟨'t', by decide, rfl⟩), if_neg (hword "false" ⟨'f', by decide, rfl⟩),
      Numeral.decimal?_toString, Option.map_some]

open Report (units16 jsonLetter? isPlainAscii jsonChar jsonString)

/-- The last of several digits. -/
theorem hexDigits_succ {width : Nat} (hwidth : 0 < width) (u : Nat) :
    Text.hexDigits (width + 1) u = Text.hexDigits width (u / 16) ++ [(u % 16).digitChar] := by
  unfold Text.hexDigits
  dsimp only
  by_cases hu : u < 16
  · have hzeros : List.replicate (width - 1) '0' ++ ['0'] = List.replicate width '0' := by
      rw [← List.replicate_succ', Nat.sub_add_cancel hwidth]
    rw [Nat.div_eq_of_lt hu, Nat.mod_eq_of_lt hu, Nat.toDigits_of_lt_base hu, Nat.toDigits_zero,
      List.length_singleton, List.length_singleton, hzeros, Nat.add_sub_cancel]
  · rw [Nat.toDigits_of_base_le (by decide) (Nat.le_of_not_lt hu), List.length_append,
      List.length_singleton, Nat.add_sub_add_right, List.append_assoc]

/-- Four digits of a number, the first the most significant. -/
theorem hexDigits_four {u : Nat} (hu : u < 0x10000) :
    Text.hexDigits 4 u =
      [u / 0x1000, u / 0x100 % 0x10, u / 0x10 % 0x10, u % 0x10].map Nat.digitChar := by
  have hone : ∀ d, d < 16 → Text.hexDigits 1 d = [d.digitChar] := by
    intro d hd
    rw [Text.hexDigits, Nat.toDigits_of_lt_base hd]
    rfl
  rw [hexDigits_succ (by decide), hexDigits_succ (by decide), hexDigits_succ (by decide),
    hone _ (by omega)]
  simp only [Nat.div_div_eq_div_mul]
  rfl

/-- A digit that is not the last one of a unit. -/
theorem step_digitChar {d : Nat} (hd : d < 16) (before : List Sign) (read : List Char)
    (high : Option Nat) (value left : Nat) :
    lexer.step ⟨before, .unit read high value left⟩ d.digitChar =
      if left ≤ 1 then
        (Mode.unit? read high (16 * value + d)).map fun mode => ⟨before, mode⟩
      else some ⟨before, .unit read high (16 * value + d) (left - 1)⟩ := by
  have hvalue : hexValue? d.digitChar = some d := Radix.hexValue?_eq_some_iff.mpr ⟨hd, .inl rfl⟩
  refine (Lexer.step_unit before read high value left _).trans ?_
  rw [hvalue]
  rfl

/-- The digits of a unit are read as the unit. -/
theorem run_hexDigits {u : Nat} (hu : u < 0x10000) (before : List Sign) (read : List Char)
    (high : Option Nat) :
    lexer.run ⟨before, .text read high⟩ ('\\' :: 'u' :: Text.hexDigits 4 u) =
      (Mode.unit? read high u).map fun mode => ⟨before, mode⟩ := by
  have hbackslash : lexer.step ⟨before, .text read high⟩ '\\' =
      some ⟨before, .escape read high⟩ := rfl
  have hletter : lexer.step ⟨before, .escape read high⟩ 'u' =
      some ⟨before, .unit read high 0 4⟩ := rfl
  have hvalue : 16 * (16 * (16 * (16 * 0 + u / 0x1000) + u / 0x100 % 0x10) + u / 0x10 % 0x10) +
      u % 0x10 = u := by omega
  rw [hexDigits_four hu]
  simp only [List.map_cons, List.map_nil, Scanner.run_cons, hbackslash, hletter, Option.bind_some]
  rw [step_digitChar (by omega), if_neg (by decide), Option.bind_some,
    step_digitChar (by omega), if_neg (by decide), Option.bind_some,
    step_digitChar (by omega), if_neg (by decide), Option.bind_some,
    step_digitChar (by omega), if_pos (by decide), hvalue]
  cases Mode.unit? read high u <;> rfl

theorem unescape?_of_jsonLetter? {c letter : Char} (h : jsonLetter? c = some letter) :
    letter ≠ 'u' ∧ unescape? letter = some c := by
  unfold jsonLetter? at h
  repeat' split at h
  all_goals cases h
  all_goals
    subst ‹c = _›
    decide

/-- A character by the units of it. -/
theorem run_units16 (c : Char) (before : List Sign) (read : List Char) :
    lexer.run ⟨before, .text read none⟩
        ((units16 c).flatMap fun u => ['\\', 'u'] ++ Text.hexDigits 4 u) =
      some ⟨before, .text (read ++ [c]) none⟩ := by
  have hvalid : c.toNat.isValidChar := c.valid
  simp only [Nat.isValidChar] at hvalid
  unfold units16
  split
  · rename_i hbasic
    -- a character of the basic plane is no surrogate
    have hunit : Mode.unit? read none c.toNat = some (.text (read ++ [c]) none) := by
      rw [Mode.unit?, if_neg (by omega), if_neg (by omega), Char.ofNat_toNat]
    rw [List.flatMap_singleton, List.cons_append, List.cons_append, List.nil_append,
      run_hexDigits hbasic, hunit, Option.map_some]
  · rename_i hbeyond
    dsimp only
    generalize hn : c.toNat - 0x10000 = n
    have hlt : n < 0x100000 := by omega
    have hhigh : Mode.unit? read none (0xd800 + n / 0x400) =
        some (.text read (some (0xd800 + n / 0x400))) := by
      rw [Mode.unit?, if_pos (by omega)]
    have hlow : Mode.unit? read (some (0xd800 + n / 0x400)) (0xdc00 + n % 0x400) =
        some (.text (read ++ [c]) none) := by
      have hc : 0x10000 + (0xd800 + n / 0x400 - 0xd800) * 0x400 + (0xdc00 + n % 0x400 - 0xdc00) =
          c.toNat := by omega
      rw [Mode.unit?, if_pos (by omega)]
      dsimp only
      rw [hc, Char.ofNat_toNat]
    rw [List.flatMap_cons, List.flatMap_singleton, Scanner.run_append, List.cons_append,
      List.cons_append, List.nil_append, run_hexDigits (by omega), hhigh, Option.map_some,
      Option.bind_some, List.cons_append, List.cons_append, List.nil_append,
      run_hexDigits (by omega), hlow, Option.map_some]

/-- **A character is read back from how it stands in a string.** -/
theorem run_jsonChar (c : Char) (before : List Sign) (read : List Char) :
    lexer.run ⟨before, .text read none⟩ (jsonChar c) =
      some ⟨before, .text (read ++ [c]) none⟩ := by
  unfold jsonChar
  split
  · rename_i letter hletter
    obtain ⟨hu, hback⟩ := unescape?_of_jsonLetter? hletter
    have hbackslash : lexer.step ⟨before, .text read none⟩ '\\' =
        some ⟨before, .escape read none⟩ := rfl
    have hstep : lexer.step ⟨before, .escape read none⟩ letter =
        some ⟨before, .text (read ++ [c]) none⟩ := by
      refine (Lexer.step_escape before read none letter).trans ?_
      rw [if_neg hu, hback]
      rfl
    rw [Scanner.run_cons, hbackslash, Option.bind_some, Scanner.run_cons, hstep]
    rfl
  · rename_i hletter
    split
    · rename_i hplain
      have hspace : ¬ c < ' ' := Char.not_lt.mpr (by
        simp only [isPlainAscii, Bool.and_eq_true, decide_eq_true_eq] at hplain
        exact hplain.1)
      have hquote : c ≠ '"' := by
        rintro rfl
        cases hletter
      have hbackslash : c ≠ '\\' := by
        rintro rfl
        cases hletter
      have hstep : lexer.step ⟨before, .text read none⟩ c =
          some ⟨before, .text (read ++ [c]) none⟩ := by
        refine (Lexer.step_text before read none c).trans ?_
        rw [if_neg hquote, if_neg hbackslash, if_neg hspace]
        rfl
      rw [Scanner.run_cons, hstep]
      rfl
    · exact run_units16 c before read

theorem lexes_string (s : String) : Lexes (jsonString s.toList) [.scalar (text s)] := by
  intro before
  have hopen : lexer.step ⟨before, .between⟩ '"' = some ⟨before, .text [] none⟩ := rfl
  have hclose : lexer.step ⟨before, .text s.toList none⟩ '"' =
      some ⟨before ++ [.scalar (text (String.ofList s.toList))], .between⟩ := rfl
  have hinside : lexer.run ⟨before, .text [] none⟩ (s.toList.flatMap jsonChar) =
      some ⟨before, .text s.toList none⟩ :=
    lexer.run_flatMap (fun read => ⟨before, .text read none⟩)
      (fun c _ read => run_jsonChar c before read) []
  rw [jsonString, List.cons_append, Scanner.scan_cons_of_step hopen,
    Scanner.scan_append_of_run hinside, Scanner.scan_cons_of_step hclose, String.ofList_toList]
  rfl

/-! ## 5. Arrays and objects -/

/-- Signs of parts with commas between them. -/
def commas : List (List Sign) → List Sign
  | [] => []
  | [ss] => ss
  | ss :: rest => ss ++ .comma :: commas rest

/-- Wherever a value has to come, the signs are the value. -/
def Parses (ss : List Sign) (v : Json) : Prop :=
  ∀ outer, (Parser.value outer).run ss = some (.behind v outer)

namespace Parses

theorem scalar (v : Json) : Parses [.scalar v] v :=
  fun _ => rfl

/-- The items of an array, when those in `done` were read. -/
theorem run_items {parts : List (List Sign)} {vs : List Json} (h : List.Forall₂ Parses parts vs)
    (hne : parts ≠ []) (done : List Json) (outer : List Frame) :
    (Parser.value (.array done :: outer)).run (commas parts ++ [.closeArray]) =
      some (.behind (.array (done ++ vs)) outer) := by
  induction h generalizing done with
  | nil => exact absurd rfl hne
  | @cons ss v parts vs hv hvs ih =>
    cases parts with
    | nil =>
      cases hvs
      rw [commas, Parser.run_append, hv]
      rfl
    | cons ts parts =>
      have hcomma : Parser.step (.behind v (.array done :: outer)) .comma =
          some (.value (.array (done ++ [v]) :: outer)) := rfl
      rw [commas]
      · rw [List.append_assoc, Parser.run_append, hv, Option.bind_some, List.cons_append,
          Parser.run_cons, hcomma, Option.bind_some, ih (List.cons_ne_nil ts parts),
          List.append_assoc, List.singleton_append]
      · exact List.cons_ne_nil ts parts

theorem array {parts : List (List Sign)} {vs : List Json} (h : List.Forall₂ Parses parts vs) :
    Parses (.openArray :: commas parts ++ [.closeArray]) (array vs) := by
  intro outer
  have hopen : Parser.step (.value outer) .openArray = some (.value (.array [] :: outer)) := rfl
  rw [List.cons_append, Parser.run_cons, hopen, Option.bind_some]
  cases h with
  | nil => rfl
  | cons hv hvs => exact run_items (.cons hv hvs) (List.cons_ne_nil _ _) [] outer

/-- The signs of a member whose value is a scalar. -/
def member (m : String × Json) : List Sign :=
  [.scalar (text m.1), .colon, .scalar m.2]

theorem run_member (m : String × Json) (done : List (String × Json)) (outer : List Frame) :
    (Parser.key done outer).run (member m) = some (.behind m.2 (.object done m.1 :: outer)) := by
  cases done <;> rfl

/-- The members of an object, when those in `done` were read. -/
theorem run_members (m : String × Json) (ms done : List (String × Json)) (outer : List Frame) :
    (Parser.key done outer).run (commas ((m :: ms).map member) ++ [.closeObject]) =
      some (.behind (.object (done ++ m :: ms)) outer) := by
  induction ms generalizing m done with
  | nil =>
    rw [List.map_singleton, commas, Parser.run_append, run_member]
    rfl
  | cons m' ms ih =>
    have hcomma : Parser.step (.behind m.2 (.object done m.1 :: outer)) .comma =
        some (.key (done ++ [m]) outer) := rfl
    rw [List.map_cons, List.map_cons, commas]
    · rw [List.append_assoc, Parser.run_append, run_member, Option.bind_some, List.cons_append,
        Parser.run_cons, hcomma, Option.bind_some, ← List.map_cons, ih m' (done ++ [m]),
        List.append_assoc, List.singleton_append]
    · exact List.cons_ne_nil _ _

theorem object (members : List (String × Json)) :
    Parses (.openObject :: commas (members.map member) ++ [.closeObject]) (object members) := by
  intro outer
  have hopen : Parser.step (.value outer) .openObject = some (.key [] outer) := rfl
  rw [List.cons_append, Parser.run_cons, hopen, Option.bind_some]
  cases members with
  | nil => rfl
  | cons m ms => exact run_members m ms [] outer

end Parses

end Json

end ContractLint
