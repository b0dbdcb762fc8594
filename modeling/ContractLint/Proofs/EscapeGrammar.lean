/-
# The grammar of escapes

`Escape.scan` finds out in one pass what an escape is and where it ends, and it has six ways to
fail.  The grammar says nothing about ends and failures: `Escape.Spells w n` holds if the text `w`,
from the percent sign to the last slash, is an escape for the number `n`.

* `Radix.denotes_iff`: the digits of a code are read as the number they denote in positional
  notation;
* `Escape.isCode_iff`: a code is cut into its marker and its digits in the only way the grammar
  allows, for no digit of a decimal code is the letter of a marker;
* `Escape.spells_of_scan`, `Escape.exists_scan_of_spells`: what is scanned is spelled like that, and
  a text that starts with an escape is scanned as this escape;
* `scan_accepts_grammar`: both for a window of a text, with the extent of malformed escapes.
-/
import ContractLint.Proofs.Lexeme
import Mathlib.Data.List.Forall2
import Mathlib.Data.List.TakeWhile
import Mathlib.Data.Nat.Digits.Defs
import Mathlib.Tactic.IntervalCases

namespace ContractLint

open List (Forall₂)

/-! ## 1. Numbers -/

namespace Radix

/-- `c` is written for the digit `d` of the radix.  Letters stand for the digits from ten on, in
either case. -/
def IsDigit (r : Radix) (c : Char) (d : Nat) : Prop :=
  d < r.base ∧ (c = d.digitChar ∨ c = d.digitChar.toUpper)

/-- There are digits `cs`, and they denote the number `n`; the first is the most significant. -/
def Denotes (r : Radix) (cs : List Char) (n : Nat) : Prop :=
  cs ≠ [] ∧ ∃ ds, Forall₂ r.IsDigit cs ds ∧ n = Nat.ofDigits r.base ds.reverse

theorem base_le (r : Radix) : r.base ≤ 16 := by
  cases r <;> decide

/-- The characters of a range are counted from its first one. -/
theorem exists_ofNat_of_range {c first last : Char} (h : first ≤ c ∧ c ≤ last) :
    ∃ k ≤ last.toNat - first.toNat, c.toNat - first.toNat = k ∧ c = Char.ofNat (first.toNat + k) := by
  have hfirst : first.toNat ≤ c.toNat := h.1
  have hlast : c.toNat ≤ last.toNat := h.2
  refine ⟨c.toNat - first.toNat, Nat.sub_le_sub_right hlast _, rfl, ?_⟩
  rw [Nat.add_sub_cancel' hfirst, Char.ofNat_toNat]

theorem hexValue?_eq_some_iff {c : Char} {d : Nat} :
    hexValue? c = some d ↔ d < 16 ∧ (c = d.digitChar ∨ c = d.digitChar.toUpper) := by
  constructor
  · intro h
    unfold hexValue? at h
    split at h
    · obtain ⟨k, hk, hvalue, rfl⟩ := exists_ofNat_of_range ‹_›
      obtain rfl := Option.some.inj (hvalue ▸ h)
      have hk : k ≤ 9 := hk
      interval_cases k <;> decide
    split at h
    · obtain ⟨k, hk, hvalue, rfl⟩ := exists_ofNat_of_range ‹_›
      obtain rfl := Option.some.inj (hvalue ▸ h)
      have hk : k ≤ 5 := hk
      interval_cases k <;> decide
    split at h
    · obtain ⟨k, hk, hvalue, rfl⟩ := exists_ofNat_of_range ‹_›
      obtain rfl := Option.some.inj (hvalue ▸ h)
      have hk : k ≤ 5 := hk
      interval_cases k <;> decide
    · cases h
  · rintro ⟨hd, rfl | rfl⟩
    · interval_cases d <;> decide
    · interval_cases d <;> decide

/-- The value of a digit is the digit it is written for. -/
theorem digitValue?_eq_some_iff {r : Radix} {c : Char} {d : Nat} :
    r.digitValue? c = some d ↔ r.IsDigit c d := by
  have hbase := r.base_le
  rw [digitValue?, Option.filter_eq_some_iff, hexValue?_eq_some_iff, IsDigit, decide_eq_true_eq]
  constructor
  · rintro ⟨⟨-, hc⟩, hd⟩
    exact ⟨hd, hc⟩
  · rintro ⟨hd, hc⟩
    exact ⟨⟨Nat.lt_of_lt_of_le hd hbase, hc⟩, hd⟩

/-- **Digits are read in positional notation.** -/
theorem number_eq_ofDigits {r : Radix} {cs : List Char} {ds : List Nat}
    (h : Forall₂ r.IsDigit cs ds) : r.number cs = Nat.ofDigits r.base ds.reverse := by
  have hfold (n : Nat) : cs.foldl (fun n c => n * r.base + (r.digitValue? c).getD 0) n =
      ds.foldl (fun n d => d + r.base * n) n := by
    induction h generalizing n with
    | nil => rfl
    | cons hd _ ih =>
      rw [List.foldl_cons, List.foldl_cons, ih, digitValue?_eq_some_iff.mpr hd, Option.getD_some,
        Nat.mul_comm, Nat.add_comm]
  rw [Nat.ofDigits_eq_foldr, List.foldr_reverse]
  exact hfold 0

/-- Whether digits are written as digits does not depend on the number they denote. -/
theorem digitValue?_isSome {r : Radix} {cs : List Char} {ds : List Nat}
    (h : Forall₂ r.IsDigit cs ds) : ∀ c ∈ cs, (r.digitValue? c).isSome = true := by
  have hboth := h.imp fun c d hd =>
    And.intro (show (r.digitValue? c).isSome = true by rw [digitValue?_eq_some_iff.mpr hd]; rfl) hd
  exact ((List.forall₂_and_left cs ds).mp hboth).1

/-- What denotes a number is not empty and has no character that is no digit. -/
theorem denotes_iff {r : Radix} {cs : List Char} {n : Nat} :
    r.Denotes cs n ↔
      cs ≠ [] ∧ (cs.find? fun c => (r.digitValue? c).isNone) = none ∧ r.number cs = n := by
  refine and_congr_right fun _ => ?_
  constructor
  · rintro ⟨ds, hds, rfl⟩
    refine ⟨List.find?_eq_none.mpr fun c hc hnone => ?_, number_eq_ofDigits hds⟩
    rw [Option.isNone_iff_eq_none] at hnone
    simpa [hnone] using digitValue?_isSome hds c hc
  · rintro ⟨hall, rfl⟩
    have hds : Forall₂ r.IsDigit cs (cs.map fun c => (r.digitValue? c).getD 0) := by
      refine List.forall₂_map_right_iff.mpr (List.forall₂_same.mpr fun c hc => ?_)
      have hc := List.find?_eq_none.mp hall c hc
      rw [← digitValue?_eq_some_iff]
      cases hvalue : r.digitValue? c with
      | none => simp [hvalue] at hc
      | some d => rfl
    exact ⟨_, hds, number_eq_ofDigits hds⟩

end Radix

/-! ## 2. Codes -/

namespace Escape

/-- `body`, between the slashes of a numeric escape, is a code for the number `n`. -/
inductive IsCode : List Char → Nat → Prop where
  | decimal {digits : List Char} {n : Nat} (h : Radix.decimal.Denotes digits n) : IsCode digits n
  /-- A zero and a letter announce another radix. -/
  | marked {letter : Char} {r : Radix} {digits : List Char} {n : Nat}
      (hletter : Radix.ofLetter? letter = some r) (h : r.Denotes digits n) :
      IsCode ('0' :: letter :: digits) n

/-- `w` is an escape for the number `n`. -/
inductive Spells : List Char → Nat → Prop where
  | named {letter v : Char} (h : namedValue? letter = some v) : Spells ['%', letter] v.toNat
  | numeric {body : List Char} {n : Nat} (h : IsCode body n) :
      Spells ('%' :: '/' :: body ++ ['/']) n

/-- The letter of a marker is no decimal digit, but it may stand in a code. -/
theorem letter_of_ofLetter? {c : Char} {r : Radix} (h : Radix.ofLetter? c = some r) :
    (Radix.decimal.digitValue? c).isSome = false ∧ isCodeChar c = true := by
  unfold Radix.ofLetter? at h
  split at h
  · rcases ‹c = 'x' ∨ c = 'X'› with rfl | rfl <;> decide
  split at h
  · rcases ‹c = 'c' ∨ c = 'C'› with rfl | rfl <;> decide
  split at h
  · rcases ‹c = 'b' ∨ c = 'B'› with rfl | rfl <;> decide
  · cases h

/-- A decimal code has no marker. -/
theorem splitMarker_of_decimal {body : List Char} {n : Nat} (h : Radix.decimal.Denotes body n) :
    splitMarker body = (.decimal, [], body) := by
  unfold splitMarker
  split
  · rename_i letter d ds
    split
    · rename_i r hletter
      -- the second digit would be the letter of a marker
      obtain ⟨-, digits, hdigits, -⟩ := h
      have hdigit := Radix.digitValue?_isSome hdigits letter (by simp)
      rw [(letter_of_ofLetter? hletter).1] at hdigit
      cases hdigit
    · rfl
  · rfl

/-- A marker in front of digits is cut off. -/
theorem splitMarker_of_marked {letter : Char} {r : Radix} {digits : List Char}
    (hletter : Radix.ofLetter? letter = some r) (hdigits : digits ≠ []) :
    splitMarker ('0' :: letter :: digits) = (r, ['0', letter], digits) := by
  cases digits with
  | nil => exact absurd rfl hdigits
  | cons d ds => rw [splitMarker, hletter]

/-- A marker is cut off, or there is none and the radix is the decimal one. -/
theorem splitMarker_cases (body : List Char) :
    splitMarker body = (.decimal, [], body) ∨
      ∃ letter r digits, Radix.ofLetter? letter = some r ∧ body = '0' :: letter :: digits ∧
        splitMarker body = (r, ['0', letter], digits) := by
  unfold splitMarker
  split
  · split
    · exact .inr ⟨_, _, _, ‹_›, rfl, rfl⟩
    · exact .inl rfl
  · exact .inl rfl

/-- **A code is cut into its marker and its digits in the only way the grammar allows.** -/
theorem isCode_iff {body : List Char} {n : Nat} :
    IsCode body n ↔ (splitMarker body).1.Denotes (splitMarker body).2.2 n := by
  constructor
  · rintro (⟨h⟩ | ⟨hletter, h⟩)
    · rwa [splitMarker_of_decimal h]
    · rwa [splitMarker_of_marked hletter h.1]
  · intro h
    obtain hsplit | ⟨letter, r, digits, hletter, rfl, hsplit⟩ := splitMarker_cases body
    · rw [hsplit] at h
      exact .decimal h
    · rw [hsplit] at h
      exact .marked hletter h

/-- **A closed code is accepted if it is one**, up to the last code point. -/
theorem exists_ofCode_iff {body : List Char} {n : Nat} :
    (∃ e, ofCode body = .ok e ∧ e.value.val = n) ↔ IsCode body n ∧ n < 0x110000 := by
  rw [isCode_iff, Radix.denotes_iff]
  unfold ofCode
  generalize splitMarker body = parts
  obtain ⟨radix, marker, digits⟩ := parts
  dsimp only
  split
  · rename_i hempty
    simp [hempty]
  rename_i hdigits
  split
  · rename_i d hd
    simp [hd]
  rename_i hall
  split
  · rename_i hcode
    constructor
    · rintro ⟨e, he, rfl⟩
      cases he
      exact ⟨⟨hdigits, hall, rfl⟩, hcode⟩
    · rintro ⟨⟨-, -, rfl⟩, -⟩
      exact ⟨_, rfl, rfl⟩
  · rename_i hcode
    constructor
    · rintro ⟨e, he, -⟩
      cases he
    · rintro ⟨⟨-, -, rfl⟩, hn⟩
      exact absurd hn hcode

/-! ## 3. Scans -/

/-- A digit stops neither the search for the closing slash nor a code. -/
theorem isCodeChar_of_digitValue? {r : Radix} {c : Char} (h : (r.digitValue? c).isSome = true) :
    isCodeChar c = true := by
  by_contra hnot
  have hstops : c = '/' ∨ c = '\n' ∨ c = '"' ∨ c = '\'' := by
    by_contra hne
    simp only [not_or] at hne
    simp [isCodeChar, hne] at hnot
  rcases hstops with rfl | rfl | rfl | rfl <;> cases r <;> cases h

theorem isCodeChar_of_isCode {body : List Char} {n : Nat} (h : IsCode body n) :
    ∀ c ∈ body, isCodeChar c = true := by
  have hdenotes {r : Radix} {digits : List Char} {n : Nat} (h : r.Denotes digits n) :
      ∀ c ∈ digits, isCodeChar c = true := by
    obtain ⟨-, ds, hds, -⟩ := h
    exact fun c hc => isCodeChar_of_digitValue? (Radix.digitValue?_isSome hds c hc)
  rcases h with h | ⟨hletter, h⟩
  · exact hdenotes h
  · intro c hc
    rcases List.mem_cons.mp hc with rfl | hc
    · rfl
    rcases List.mem_cons.mp hc with rfl | hc
    · exact (letter_of_ofLetter? hletter).2
    · exact hdenotes h c hc

/-- A closed code is all that a numeric escape takes. -/
theorem scanNumeric_closed {body : List Char} (h : ∀ c ∈ body, isCodeChar c = true)
    (rest : List Char) :
    scanNumeric (body ++ '/' :: rest) = ⟨ofCode body, body.length + 2⟩ := by
  have hbody : (body ++ '/' :: rest).takeWhile isCodeChar = body := by
    rw [List.takeWhile_append_of_pos h, List.takeWhile_cons_of_neg (by decide), List.append_nil]
  unfold scanNumeric
  dsimp only
  rw [hbody, List.drop_left]
  rfl

/-- **A text that starts with an escape is scanned as this escape.** -/
theorem exists_scan_of_spells {w cs : List Char} {n : Nat} (hw : Spells w n)
    (hn : n < 0x110000) (hcs : w <+: '%' :: cs) :
    ∃ e, (scan cs).outcome = .ok e ∧ e.value.val = n ∧ w = '%' :: cs.take (scan cs).taken := by
  obtain ⟨rest, hcs⟩ := hcs
  cases hw with
  | @named letter v h =>
    obtain rfl : cs = letter :: rest := (List.cons.inj hcs).2.symm
    have hfeed : letter ≠ '\n' := by
      rintro rfl
      cases h
    have hslash : letter ≠ '/' := by
      rintro rfl
      cases h
    rw [scan, if_neg hfeed, if_neg hslash, h]
    exact ⟨_, rfl, rfl, rfl⟩
  | @numeric body _ h =>
    obtain rfl : cs = '/' :: (body ++ '/' :: rest) := by
      simpa using (List.cons.inj hcs).2.symm
    obtain ⟨e, he, hvalue⟩ := exists_ofCode_iff.mpr ⟨h, hn⟩
    have hscan : scan ('/' :: (body ++ '/' :: rest)) = ⟨ofCode body, body.length + 2⟩ := by
      rw [scan, if_neg (by decide), if_pos rfl, scanNumeric_closed (isCodeChar_of_isCode h)]
    rw [hscan]
    refine ⟨e, he, hvalue, ?_⟩
    rw [List.take_succ_cons, List.take_length_add_append]
    rfl

/-- **What is scanned as an escape is spelled like one.** -/
theorem spells_of_scan {cs : List Char} {e : Escape} (h : (scan cs).outcome = .ok e) :
    Spells ('%' :: cs.take (scan cs).taken) e.value.val := by
  rcases scan_cases h with ⟨letter, v, hv, rfl, htake⟩ | ⟨body, hcode, htake⟩
  · rw [htake]
    exact .named hv
  · rw [htake]
    exact .numeric (exists_ofCode_iff.mp ⟨e, hcode, rfl⟩).1

/-- A scan never reaches over a line feed. -/
theorem newline_notMem_scan (cs : List Char) : '\n' ∉ cs.take (scan cs).taken := by
  have hrun {p : Char → Bool} (hp : p '\n' = false) (cs : List Char) :
      '\n' ∉ cs.takeWhile p := fun hmem => by
    have htrue := List.mem_takeWhile_imp hmem
    rw [hp] at htrue
    cases htrue
  unfold scan
  split
  · exact List.not_mem_nil
  rename_i c cs
  split
  · exact List.not_mem_nil
  rename_i hfeed
  have hone : '\n' ∉ (c :: cs).take 1 := by simpa using Ne.symm hfeed
  split
  · rename_i hslash
    unfold scanNumeric
    dsimp only
    rw [hslash]
    split
    · rename_i rest hrest
      dsimp only
      rw [List.take_succ_cons, take_code hrest]
      simpa using hrun (p := isCodeChar) rfl cs
    · dsimp only
      rw [List.take_succ_cons, ← List.prefix_iff_eq_take.mp (List.takeWhile_prefix _)]
      simpa using hrun (p := Text.isWordChar) (by decide) cs
  · split <;> exact hone

end Escape

/-! ## 4. Windows of a text -/

/-- A window that starts at a percent sign goes on with what is scanned, and what is read is the
front of the window. -/
theorem scan_window {text cs : List Char} {pos limit : Nat} (hsign : text[pos]? = some '%')
    (hpos : pos < limit) (hlimit : limit ≤ text.length)
    (hcs : (text.take limit).drop (pos + 1) = cs) :
    let stop := pos + 1 + (Escape.scan cs).taken
    (text.take limit).drop pos = '%' :: cs ∧ stop ≤ limit ∧
      (text.take stop).drop pos = '%' :: cs.take (Escape.scan cs).taken := by
  intro stop
  have hget : (text.take limit)[pos]? = some '%' := by
    rw [List.getElem?_take_of_lt hpos, hsign]
  have hwindow : (text.take limit).drop pos = '%' :: cs := by
    obtain ⟨hlt, hget⟩ := List.getElem?_eq_some_iff.mp hget
    rw [List.drop_eq_getElem_cons hlt, hget, hcs]
  have hstop : stop ≤ limit := by
    have htaken := Escape.scan_taken_le cs
    have hlength : cs.length = limit - (pos + 1) := by
      rw [← hcs, List.length_drop, List.length_take_of_le hlimit]
    omega
  refine ⟨hwindow, hstop, ?_⟩
  have htake : text.take stop = (text.take limit).take stop := by
    rw [List.take_take, Nat.min_eq_left hstop]
  rw [htake, List.drop_take, hwindow, show stop - pos = (Escape.scan cs).taken + 1 by omega,
    List.take_succ_cons]

/-- **Escapes are accepted exactly by the grammar.**  For a percent sign in front of `limit`, `read`
is what the scan takes: something in front of `limit` and on one line.  An escape is found if and
only if the window up to `limit` starts with one, and then it is this escape, the only one that the
window starts with: it stands for the number and spells what was read.  Otherwise the value is the
replacement character, and the malformed escape covers what was read. -/
theorem scan_accepts_grammar (text : List Char) (pos limit : Nat)
    (hsign : text[pos]? = some '%') (hpos : pos < limit) (hlimit : limit ≤ text.length) :
    let s := Escape.scanAt text pos (some limit)
    let stop := pos + 1 + s.taken
    let window := (text.take limit).drop pos
    let read := (text.take stop).drop pos
    let seg := Segment.ofScan pos (text.drop (pos + 1)) s
    (pos < stop ∧ stop ≤ limit ∧ '\n' ∉ read) ∧
      ((∃ e, s.outcome = .ok e) ↔
        ∃ w n, w <+: window ∧ Escape.Spells w n ∧ n ≤ 0x10ffff) ∧
      (∀ e, s.outcome = .ok e →
        s.value = e.value ∧ e.render = read ∧ seg.issue? = none ∧
          ∀ w n, w <+: window → Escape.Spells w n → n ≤ 0x10ffff →
            w = read ∧ e.value.val = n) ∧
      ∀ fault, s.outcome = .error fault →
        s.value = .replacement ∧ seg.issue? = some ⟨pos, stop - pos, fault⟩ := by
  intro s stop window read seg
  generalize hcs : (text.take limit).drop (pos + 1) = cs
  have hs : s = Escape.scan cs := by rw [← hcs]; rfl
  obtain ⟨hwindow, hstop, hread⟩ := scan_window hsign hpos hlimit hcs
  rw [← hs] at hstop hread
  change window = '%' :: cs at hwindow
  change read = '%' :: cs.take s.taken at hread
  have hspells {e : Escape} (he : s.outcome = .ok e) : Escape.Spells read e.value.val := by
    rw [hread]
    rw [hs] at he ⊢
    exact Escape.spells_of_scan he
  have hfound {w : List Char} {n : Nat} (hw : w <+: window) (hspelled : Escape.Spells w n)
      (hn : n ≤ 0x10ffff) : ∃ e, s.outcome = .ok e ∧ e.value.val = n ∧ w = read := by
    rw [hread]
    rw [hwindow] at hw
    rw [hs]
    exact Escape.exists_scan_of_spells hspelled (Nat.lt_succ_of_le hn) hw
  refine ⟨⟨by omega, hstop, ?_⟩, ⟨?_, ?_⟩, ?_, ?_⟩
  · rw [hread, hs]
    simpa using Escape.newline_notMem_scan cs
  · rintro ⟨e, he⟩
    refine ⟨read, e.value.val, ?_, hspells he, Nat.le_of_lt_succ e.value.isLt⟩
    rw [hread, hwindow]
    exact List.cons_prefix_cons.mpr ⟨rfl, List.take_prefix _ cs⟩
  · rintro ⟨w, n, hw, hspelled, hn⟩
    obtain ⟨e, he, -⟩ := hfound hw hspelled hn
    exact ⟨e, he⟩
  · intro e he
    refine ⟨by rw [Escape.Scan.value, he], ?_, ?_, ?_⟩
    · rw [hread]
      rw [hs] at he ⊢
      exact Escape.render_of_scan he
    · unfold seg
      rw [Segment.ofScan, he]
      rfl
    · intro w n hw hspelled hn
      obtain ⟨e', he', hvalue, hw⟩ := hfound hw hspelled hn
      obtain rfl := Except.ok.inj (he.symm.trans he')
      exact ⟨hw, hvalue⟩
  · intro fault hfault
    refine ⟨by rw [Escape.Scan.value, hfault], ?_⟩
    have hrest : s.taken ≤ (text.drop (pos + 1)).length := by
      rw [List.length_drop]
      omega
    have hlength : ('%' :: (text.drop (pos + 1)).take s.taken).length = stop - pos := by
      rw [List.length_cons, List.length_take_of_le hrest]
      omega
    unfold seg
    rw [Segment.ofScan, hfault, ← hlength]
    rfl

/-- A code in front of a slash, read up to the end of the text. -/
def sampleCode : List Char :=
  "a%/0X1f600/b".toList

theorem scan_accepts_grammar_sample :
    let s := Escape.scanAt sampleCode 1 (some 12)
    (sampleCode[1]? = some '%' ∧ 1 < 12 ∧ 12 ≤ sampleCode.length) ∧
      ∃ e, s.outcome = .ok e ∧ e.value.val = 0x1f600 ∧ e.render = "%/0X1f600/".toList ∧
        1 + 1 + s.taken ≤ 12 := by
  intro s
  have hdigits : Radix.hexadecimal.Denotes "1f600".toList 0x1f600 :=
    Radix.denotes_iff.mpr (by decide)
  have hcode : Escape.Spells "%/0X1f600/".toList 0x1f600 :=
    .numeric (@Escape.IsCode.marked 'X' _ _ _ rfl hdigits)
  have hstarts : "%/0X1f600/".toList <+: (sampleCode.take 12).drop 1 := by decide
  obtain ⟨⟨-, hstop, -⟩, haccepts, hfound, -⟩ :=
    scan_accepts_grammar sampleCode 1 12 (by decide) (by decide) (by decide)
  obtain ⟨e, he⟩ := haccepts.mpr ⟨_, _, hstarts, hcode, by decide⟩
  obtain ⟨-, hrender, -, honly⟩ := hfound e he
  obtain ⟨hread, hvalue⟩ := honly _ _ hstarts hcode (by decide)
  exact ⟨by decide, e, he, hvalue, hrender.trans hread.symm, hstop⟩

end ContractLint
