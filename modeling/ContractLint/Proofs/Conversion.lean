/-
# Numbers that are not converted

Numbers of more than `Text.maxDigits` decimal digits are neither read nor written, so a scan breaks
off at an escape that asks for one.  `TooLong w fault` says of a text `w`, from the percent sign to
the last slash, that it is such an escape: a decimal code of too many digits, leading zeros included,
or a code in another radix for a number that its message could not show.

* `Escape.scan?_cases`: a scan breaks off exactly in front of such an escape, and otherwise it
  answers what `Escape.scan` says;
* `cut_segments?`: content is cut as `segments` cuts it, up to the first such escape;
* `segments?_eq`: the segments themselves tell where that is, as the scan of a text relies on.
-/
import ContractLint.Proofs.EscapeGrammar

namespace ContractLint

open List (Forall₂)

/-- `w` is an escape whose number is not converted. -/
inductive TooLong : List Char → ConversionFault → Prop where
  | reading {digits : List Char} {n : Nat} (h : Radix.decimal.Denotes digits n)
      (hlength : Text.maxDigits < digits.length) :
      TooLong ('%' :: '/' :: digits ++ ['/']) (.reading digits.length)
  | writing {letter : Char} {r : Radix} {digits : List Char} {n : Nat}
      (hletter : Radix.ofLetter? letter = some r) (h : r.Denotes digits n)
      (hlarge : 10 ^ Text.maxDigits ≤ n) :
      TooLong ('%' :: '/' :: ('0' :: letter :: digits) ++ ['/']) .writing

/-! ## 1. Codes -/

/-- A number is less than the power of the radix that its digits allow. -/
theorem Radix.Denotes.lt_pow {r : Radix} {cs : List Char} {n : Nat} (h : r.Denotes cs n) :
    n < r.base ^ cs.length := by
  obtain ⟨-, ds, hds, rfl⟩ := h
  have hbase : 1 < r.base := by cases r <;> decide
  have hlt : ∀ d ∈ ds.reverse, d < r.base := by
    intro d hd
    have hboth := hds.flip.imp fun d c hd => And.intro hd.1 hd
    exact ((List.forall₂_and_left ds cs).mp hboth).1 d (List.mem_reverse.mp hd)
  have hpow := Nat.ofDigits_lt_base_pow_length hbase hlt
  rwa [List.length_reverse, ← hds.length_eq] at hpow

/-- No letter announces the decimal radix. -/
theorem Radix.ne_decimal_of_ofLetter? {c : Char} {r : Radix} (h : ofLetter? c = some r) :
    r ≠ .decimal := by
  rintro rfl
  unfold ofLetter? at h
  split at h
  · cases h
  split at h
  · cases h
  split at h <;> cases h

theorem Radix.number?_eq_error_iff {r : Radix} {digits : List Char} {fault : ConversionFault} :
    r.number? digits = .error fault ↔
      r = .decimal ∧ Text.maxDigits < digits.length ∧ fault = .reading digits.length := by
  unfold number?
  split
  · rename_i h
    simp [h, eq_comm]
  · rename_i h
    simp only [reduceCtorEq, false_iff]
    exact fun hfault => h ⟨hfault.1, hfault.2.1⟩

theorem Radix.number?_eq_ok_iff {r : Radix} {digits : List Char} {n : Nat} :
    r.number? digits = .ok n ↔
      ¬ (r = .decimal ∧ Text.maxDigits < digits.length) ∧ r.number digits = n := by
  unfold number?
  split
  · rename_i h
    simp [h]
  · rename_i h
    simp [h]

namespace Escape

theorem outOfRange?_eq_error_iff {code : Nat} {fault : ConversionFault} :
    outOfRange? code = .error fault ↔ 10 ^ Text.maxDigits ≤ code ∧ fault = .writing := by
  rw [outOfRange?, Nat.pow_eq]
  split
  · rename_i h
    simp [h, eq_comm]
  · rename_i h
    simp [h]

/-- A code that is too long, by its radix and its digits. -/
theorem tooLong_iff {body : List Char} {fault : ConversionFault} :
    TooLong ('%' :: '/' :: body ++ ['/']) fault ↔
      ∃ n, (splitMarker body).1.Denotes (splitMarker body).2.2 n ∧
        ((splitMarker body).1.number? (splitMarker body).2.2 = .error fault ∨
          (splitMarker body).1.number? (splitMarker body).2.2 = .ok n ∧
            outOfRange? n = .error fault) := by
  constructor
  · intro h
    generalize hw : '%' :: '/' :: body ++ ['/'] = w at h
    cases h with
    | @reading digits n hdenotes hlength =>
      obtain rfl : body = digits := by simpa using hw
      rw [splitMarker_of_decimal hdenotes]
      exact ⟨n, hdenotes, .inl (Radix.number?_eq_error_iff.mpr ⟨rfl, hlength, rfl⟩)⟩
    | @writing letter r digits n hletter hdenotes hlarge =>
      obtain rfl : body = '0' :: letter :: digits :=
        List.append_cancel_right (List.cons.inj (List.cons.inj hw).2).2
      rw [splitMarker_of_marked hletter hdenotes.1]
      have hradix : r ≠ .decimal := Radix.ne_decimal_of_ofLetter? hletter
      have hnumber := (Radix.denotes_iff.mp hdenotes).2.2
      exact ⟨n, hdenotes, .inr ⟨Radix.number?_eq_ok_iff.mpr ⟨fun h => hradix h.1, hnumber⟩,
        outOfRange?_eq_error_iff.mpr ⟨hlarge, rfl⟩⟩⟩
  · rintro ⟨n, hdenotes, h⟩
    rw [Radix.number?_eq_error_iff, Radix.number?_eq_ok_iff, outOfRange?_eq_error_iff] at h
    obtain hsplit | ⟨letter, r, digits, hletter, rfl, hsplit⟩ := splitMarker_cases body
    · rw [hsplit] at hdenotes h
      obtain ⟨-, hlength, rfl⟩ | ⟨⟨hshort, -⟩, hlarge, -⟩ := h
      · exact .reading hdenotes hlength
      · -- a decimal code that is short enough to be read is short enough to be written
        have hlength : body.length ≤ Text.maxDigits := by simpa using hshort
        have hpow : n < 10 ^ Text.maxDigits :=
          Nat.lt_of_lt_of_le hdenotes.lt_pow (Nat.pow_le_pow_right (by decide : 0 < 10) hlength)
        exact absurd hlarge (Nat.not_le_of_lt hpow)
    · rw [hsplit] at hdenotes h
      have hradix : r ≠ .decimal := Radix.ne_decimal_of_ofLetter? hletter
      obtain ⟨hdecimal, -⟩ | ⟨-, hlarge, rfl⟩ := h
      · exact absurd hdecimal hradix
      · exact .writing hletter hdenotes hlarge

theorem outOfRange?_eq_ok {code : Nat} {fault : EscapeFault} (h : outOfRange? code = .ok fault) :
    fault = .outOfRange code := by
  unfold outOfRange? at h
  split at h
  · cases h
  · exact (Except.ok.inj h).symm

/-- Every code point is short enough to be written. -/
theorem not_large_of_lt {code : Nat} (h : code < 0x110000) : ¬ 10 ^ Text.maxDigits ≤ code := by
  have hpow : 10 ^ 7 ≤ 10 ^ Text.maxDigits := Nat.pow_le_pow_right (by decide : 0 < 10) (by decide)
  omega

/-- **Reading a code breaks off exactly if the code is too long.**  Otherwise the code reads as it
does without a bound. -/
theorem ofCode?_cases (body : List Char) :
    (∃ fault, ofCode? body = .error fault ∧ TooLong ('%' :: '/' :: body ++ ['/']) fault) ∨
      ofCode? body = .ok (ofCode body) ∧ ∀ fault, ¬ TooLong ('%' :: '/' :: body ++ ['/']) fault := by
  simp only [tooLong_iff, Radix.denotes_iff]
  unfold ofCode? ofCode
  generalize splitMarker body = parts
  obtain ⟨radix, marker, digits⟩ := parts
  dsimp only
  split
  · rename_i hempty
    refine .inr ⟨rfl, ?_⟩
    rintro fault ⟨n, ⟨hne, -⟩, -⟩
    exact hne hempty
  rename_i hne
  split
  · rename_i d hd
    refine .inr ⟨rfl, ?_⟩
    rintro fault ⟨n, ⟨-, hall, -⟩, -⟩
    rw [hd] at hall
    cases hall
  rename_i hall
  cases hnumber : radix.number? digits with
  | error fault => exact .inl ⟨fault, rfl, _, ⟨hne, hall, rfl⟩, .inl rfl⟩
  | ok n =>
    obtain rfl := (Radix.number?_eq_ok_iff.mp hnumber).2
    by_cases hcode : radix.number digits < 0x110000
    · refine .inr ⟨by simp [hcode, bind, Except.bind, pure, Except.pure], ?_⟩
      rintro fault ⟨n, ⟨-, -, rfl⟩, h | ⟨-, h⟩⟩
      · cases h
      · exact not_large_of_lt hcode (outOfRange?_eq_error_iff.mp h).1
    cases hout : outOfRange? (radix.number digits) with
    | error fault =>
      refine .inl ⟨fault, ?_, _, ⟨hne, hall, rfl⟩, .inr ⟨rfl, hout⟩⟩
      simp [hcode, hout, bind, Except.bind]
    | ok found =>
      obtain rfl := outOfRange?_eq_ok hout
      refine .inr ⟨by simp [hcode, hout, bind, Except.bind, pure, Except.pure], ?_⟩
      rintro fault ⟨n, ⟨-, -, rfl⟩, h | ⟨-, h⟩⟩
      · cases h
      · rw [hout] at h
        cases h

/-- What is too long stands between slashes. -/
theorem exists_of_tooLong {w : List Char} {fault : ConversionFault} (h : TooLong w fault) :
    ∃ body, w = '%' :: '/' :: body ++ ['/'] := by
  cases h with
  | reading => exact ⟨_, rfl⟩
  | writing => exact ⟨_, rfl⟩

/-- **A scan breaks off exactly in front of an escape that is too long.**  Otherwise it answers what
it answers without a bound. -/
theorem scan?_cases (cs : List Char) :
    (∃ fault, scan? cs = .error fault ∧ TooLong ('%' :: cs.take (scan cs).taken) fault) ∨
      scan? cs = .ok (scan cs) ∧ ∀ fault, ¬ TooLong ('%' :: cs.take (scan cs).taken) fault := by
  cases cs with
  | nil =>
    refine .inr ⟨rfl, fun fault h => ?_⟩
    obtain ⟨body, hbody⟩ := exists_of_tooLong h
    cases hbody
  | cons c cs =>
    rw [scan?, scan]
    by_cases hfeed : c = '\n'
    · rw [if_pos hfeed, if_pos hfeed]
      refine .inr ⟨rfl, fun fault h => ?_⟩
      obtain ⟨body, hbody⟩ := exists_of_tooLong h
      cases hbody
    rw [if_neg hfeed, if_neg hfeed]
    by_cases hslash : c = '/'
    · rw [if_pos hslash, if_pos hslash, hslash]
      unfold scanNumeric? scanNumeric
      dsimp only
      split
      · rename_i rest hrest
        dsimp only
        rw [List.take_succ_cons, take_code hrest]
        obtain ⟨fault, he, hlong⟩ | ⟨hok, hshort⟩ := ofCode?_cases (cs.takeWhile isCodeChar)
        · exact .inl ⟨fault, by rw [he]; rfl, hlong⟩
        · exact .inr ⟨by rw [hok]; rfl, hshort⟩
      · refine .inr ⟨rfl, fun fault h => ?_⟩
        obtain ⟨body, hbody⟩ := exists_of_tooLong h
        rw [List.take_succ_cons, ← List.prefix_iff_eq_take.mp (List.takeWhile_prefix _)] at hbody
        -- an escape without its closing slash is a run of word characters
        have hmem : '/' ∈ cs.takeWhile Text.isWordChar := by
          rw [(List.cons.inj (List.cons.inj hbody).2).2]
          exact List.mem_concat_self
        have hword := List.mem_takeWhile_imp hmem
        revert hword
        decide
    · rw [if_neg hslash, if_neg hslash]
      have hone (fault : ConversionFault) : ¬ TooLong ('%' :: (c :: cs).take 1) fault := by
        intro h
        obtain ⟨body, hbody⟩ := exists_of_tooLong h
        exact hslash (List.cons.inj (List.cons.inj hbody).2).1
      cases namedValue? c with
      | some v => exact .inr ⟨rfl, hone⟩
      | none => exact .inr ⟨rfl, hone⟩

/-- A text is too long in one way only. -/
theorem tooLong_unique {w : List Char} {fault fault' : ConversionFault} (h : TooLong w fault)
    (h' : TooLong w fault') : fault = fault' := by
  obtain ⟨body, rfl⟩ := exists_of_tooLong h
  obtain ⟨n, hn, h⟩ := tooLong_iff.mp h
  obtain ⟨n', hn', h'⟩ := tooLong_iff.mp h'
  obtain rfl : n = n' := (Radix.denotes_iff.mp hn).2.2.symm.trans (Radix.denotes_iff.mp hn').2.2
  rcases h with h | ⟨h, hout⟩ <;> rcases h' with h' | ⟨h', hout'⟩
  · exact Except.error.inj (h.symm.trans h')
  · rw [h] at h'
    cases h'
  · rw [h] at h'
    cases h'
  · exact Except.error.inj (hout.symm.trans hout')

/-- An escape that is too long is all that is scanned. -/
theorem eq_of_tooLong_prefix {w cs : List Char} {fault : ConversionFault} (h : TooLong w fault)
    (hw : w <+: '%' :: cs) : w = '%' :: cs.take (scan cs).taken := by
  obtain ⟨body, rfl⟩ := exists_of_tooLong h
  obtain ⟨n, hn, -⟩ := tooLong_iff.mp h
  obtain ⟨rest, hrest⟩ := hw
  obtain rfl : cs = '/' :: (body ++ '/' :: rest) := by simpa using (List.cons.inj hrest).2.symm
  have hchars := isCodeChar_of_isCode (isCode_iff.mpr hn)
  rw [scan, if_neg (by decide), if_pos rfl, scanNumeric_closed hchars, List.take_succ_cons,
    List.take_length_add_append]
  rfl

/-- **A scan breaks off exactly where the text goes on with an escape that is too long.** -/
theorem conversionFault?_eq_some_iff {cs : List Char} {fault : ConversionFault} :
    conversionFault? cs = some fault ↔ ∃ w, w <+: '%' :: cs ∧ TooLong w fault := by
  have hprefix : '%' :: cs.take (scan cs).taken <+: '%' :: cs :=
    List.cons_prefix_cons.mpr ⟨rfl, List.take_prefix _ cs⟩
  unfold conversionFault?
  obtain ⟨found, he, hlong⟩ | ⟨hok, hshort⟩ := scan?_cases cs
  · rw [he]
    constructor
    · rintro ⟨⟩
      exact ⟨_, hprefix, hlong⟩
    · rintro ⟨w, hw, h⟩
      obtain rfl := eq_of_tooLong_prefix h hw
      exact congrArg some (tooLong_unique hlong h)
  · rw [hok]
    constructor
    · rintro ⟨⟩
    · rintro ⟨w, hw, h⟩
      obtain rfl := eq_of_tooLong_prefix h hw
      exact absurd h (hshort fault)

end Escape

/-! ## 2. Segments -/

/-- The segments of a cut that may break off: all of them, unless one is too long.  Then there is the
fault of the first such segment instead. -/
inductive Cut : List Segment → Except ConversionFault (List Segment) → Prop where
  | whole {segs : List Segment} (h : ∀ seg ∈ segs, ∀ fault, ¬ TooLong seg.source fault) :
      Cut segs (.ok segs)
  | broken {before after : List Segment} {seg : Segment} {fault : ConversionFault}
      (hbefore : ∀ s ∈ before, ∀ fault, ¬ TooLong s.source fault)
      (hseg : TooLong seg.source fault) :
      Cut (before ++ seg :: after) (.error fault)

namespace Cut

theorem nil : Cut [] (.ok []) :=
  .whole fun _ h => absurd h List.not_mem_nil

/-- One more segment in front, which is not too long. -/
theorem cons {seg : Segment} {segs : List Segment} {x : Except ConversionFault (List Segment)}
    (hseg : ∀ fault, ¬ TooLong seg.source fault) (h : Cut segs x) :
    Cut (seg :: segs) (do let segs ← x; return seg :: segs) := by
  cases h with
  | whole h => exact .whole (List.forall_mem_cons.mpr ⟨hseg, h⟩)
  | @broken before after s fault hbefore hs =>
    exact @broken (seg :: before) after s fault (List.forall_mem_cons.mpr ⟨hseg, hbefore⟩) hs

end Cut

/-- **Content is cut up to the first escape that is too long.** -/
theorem cut_segments? (stop : Char → Bool) (offset : Int) (cs : List Char) :
    Cut (segments stop offset cs) (segments? stop offset cs) := by
  fun_induction segments stop offset cs with
  | case1 offset =>
    rw [segments?]
    exact .nil
  | case2 offset c rest hstop =>
    rw [segments?, if_pos hstop]
    exact .nil
  | case3 offset rest s hstop ih =>
    rw [segments?, if_neg hstop, if_pos rfl]
    have hsource := Segment.source_ofScan offset rest
    obtain ⟨fault, he, hlong⟩ | ⟨hok, hshort⟩ := Escape.scan?_cases rest
    · rw [he]
      exact @Cut.broken [] _ _ _ (fun _ h => absurd h List.not_mem_nil) (hsource ▸ hlong)
    · rw [hok]
      exact .cons (fun fault => hsource ▸ hshort fault) ih
  | case4 offset c rest hstop hc tail ih =>
    rw [segments?, if_neg hstop, if_neg hc]
    refine .cons (fun fault h => ?_) ih
    obtain ⟨body, hbody⟩ := Escape.exists_of_tooLong h
    exact hc (List.cons.inj hbody).1

/-- **What a scanned segment spells tells whether it could be scanned.** -/
theorem Segment.conversionFault?_ofScan (offset : Int) (rest : List Char) :
    (ofScan offset rest (Escape.scan rest)).conversionFault? = Escape.conversionFault? rest := by
  have hsource := source_ofScan offset rest
  have htail : (ofScan offset rest (Escape.scan rest)).conversionFault? =
      Escape.conversionFault? (rest.take (Escape.scan rest).taken) := by
    unfold ofScan at hsource ⊢
    split at hsource
    · exact congrArg (fun w => Escape.conversionFault? w.tail) hsource
    · rfl
  rw [htail]
  refine Option.ext fun fault => ?_
  rw [Escape.conversionFault?_eq_some_iff, Escape.conversionFault?_eq_some_iff]
  refine exists_congr fun w => and_congr_left fun h => ⟨fun hw => ?_, fun hw => ?_⟩
  · exact hw.trans (List.cons_prefix_cons.mpr ⟨rfl, List.take_prefix _ rest⟩)
  · obtain rfl := Escape.eq_of_tooLong_prefix h hw
    exact List.prefix_rfl

/-- **The segments of content tell where cutting it breaks off.** -/
theorem segments?_eq (stop : Char → Bool) (offset : Int) (cs : List Char) :
    segments? stop offset cs =
      match (segments stop offset cs).findSome? Segment.conversionFault? with
      | some fault => .error fault
      | none => .ok (segments stop offset cs) := by
  fun_induction segments stop offset cs with
  | case1 offset => rw [segments?, List.findSome?_nil]
  | case2 offset c rest hstop => rw [segments?, if_pos hstop, List.findSome?_nil]
  | case3 offset rest s hstop ih =>
    rw [segments?, if_neg hstop, if_pos rfl, List.findSome?_cons, Segment.conversionFault?_ofScan]
    unfold Escape.conversionFault?
    obtain ⟨fault, he, -⟩ | ⟨hok, -⟩ := Escape.scan?_cases rest
    · rw [he]
      rfl
    · rw [hok]
      change (do let segs ← segments? _ _ _; return _ :: segs) = _
      rw [ih]
      cases List.findSome? Segment.conversionFault? _ <;> rfl
  | case4 offset c rest hstop hc tail ih =>
    rw [segments?, if_neg hstop, if_neg hc, List.findSome?_cons]
    change (do let segs ← segments? _ _ _; return _ :: segs) = _
    rw [ih]
    cases List.findSome? Segment.conversionFault? _ <;> rfl

end ContractLint
