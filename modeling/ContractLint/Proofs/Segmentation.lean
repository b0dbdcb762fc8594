/-
# Decoding keeps the spelling

`Segmentation offset content segs` says what it is to cut content right, without saying how: plain
runs hold no percent sign, an escape is one of the grammar, and a malformed escape starts at a
percent sign where the grammar has none.  `segmentation_decode` shows that this is how `decode`
cuts, for any content; the rest is induction over segmentations.

* `Segmentation.sources_eq`: the segments spell the content, for an escape spells what it was read
  from;
* `Segmentation.signs`: escapes stand at percent signs of the content, in the order of the content;
* `Segment.reported`: every malformed escape has one issue, which covers it;
* `decode_keeps_spelling`: all of this for `decode`, and where `decode?` breaks off;
* `longZero_not_decoded`: content at which it does.
-/
import ContractLint.Proofs.Conversion
import ContractLint.Proofs.Decoding

namespace ContractLint

open List (Forall₂)

/-! ## 1. Segmentations -/

/-- `Segmentation offset content segs`: the segments `segs` cut the content `content`, whose first
character is at `offset`. -/
inductive Segmentation : Int → List Char → List Segment → Prop where
  | nil (offset : Int) : Segmentation offset [] []
  | plain {offset : Int} {text rest : List Char} {segs : List Segment} (hne : text ≠ [])
      (hplain : '%' ∉ text) (h : Segmentation (offset + text.length) rest segs) :
      Segmentation offset (text ++ rest) (.plain text :: segs)
  | escape {offset : Int} {e : Escape} {rest : List Char} {segs : List Segment}
      (hspells : Escape.Spells e.render e.value.val)
      (h : Segmentation (offset + e.render.length) rest segs) :
      Segmentation offset (e.render ++ rest) (.escape offset e :: segs)
  /-- What is left of the content starts with no escape. -/
  | malformed {offset : Int} {raw rest : List Char} {fault : EscapeFault} {segs : List Segment}
      (hsign : raw.head? = some '%')
      (hnone : ∀ w n, Escape.Spells w n → n ≤ 0x10ffff → ¬ w <+: raw ++ rest)
      (h : Segmentation (offset + raw.length) rest segs) :
      Segmentation offset (raw ++ rest) (.malformed offset raw fault :: segs)

/-- One escape, and what is cut behind it. -/
theorem Segmentation.ofScan {offset : Int} {rest : List Char} {segs : List Segment}
    (h : Segmentation (offset + 1 + (Escape.scan rest).taken)
      (rest.drop (Escape.scan rest).taken) segs) :
    Segmentation offset ('%' :: rest)
      (Segment.ofScan offset rest (Escape.scan rest) :: segs) := by
  have htaken := Escape.scan_taken_le rest
  generalize hread : '%' :: rest.take (Escape.scan rest).taken = read
  have hcontent : '%' :: rest = read ++ rest.drop (Escape.scan rest).taken := by
    rw [← hread, List.cons_append, List.take_append_drop]
  have hlength : offset + 1 + (Escape.scan rest).taken = offset + read.length := by
    rw [← hread, List.length_cons, List.length_take_of_le htaken]
    omega
  rw [hlength] at h
  unfold Segment.ofScan
  split
  · rename_i e he
    have hrender : e.render = read := hread ▸ Escape.render_of_scan he
    have hspells : Escape.Spells e.render e.value.val := by
      rw [hrender, ← hread]
      exact Escape.spells_of_scan he
    rw [← hrender] at h hcontent
    rw [hcontent]
    exact .escape hspells h
  · rename_i fault hfault
    rw [hread, hcontent]
    refine .malformed (by rw [← hread]; rfl) (fun w n hw hn hprefix => ?_) h
    rw [← hcontent] at hprefix
    obtain ⟨e, he, -⟩ := Escape.exists_scan_of_spells hw (Nat.lt_succ_of_le hn) hprefix
    rw [hfault] at he
    cases he

/-- **Decoding cuts content right**, whatever the content is. -/
theorem segmentation_decode (offset : Int) (content : List Char) :
    Segmentation offset content (decode offset content) := by
  unfold decode
  fun_induction segments (fun _ => false) offset content with
  | case1 offset => exact .nil offset
  | case2 offset c rest hstop => cases hstop
  | case3 offset rest s hstop ih => exact .ofScan ih
  | case4 offset c rest hstop hc run ih =>
    have hplain : '%' ∉ c :: run := by
      intro hmem
      rcases List.mem_cons.mp hmem with h | hmem
      · exact hc h.symm
      · have hplain := List.mem_takeWhile_imp hmem
        cases hplain
    have hsplit : c :: rest = c :: run ++ rest.drop run.length :=
      congrArg (c :: ·) (List.prefix_iff_eq_append.mp (List.takeWhile_prefix _)).symm
    rw [hsplit]
    refine .plain (List.cons_ne_nil c run) hplain ?_
    rwa [List.length_cons, Nat.cast_add, Nat.cast_one, Int.add_comm (run.length : Int),
      ← Int.add_assoc]

/-- **The segments spell the content.** -/
theorem Segmentation.sources_eq {offset : Int} {content : List Char} {segs : List Segment}
    (h : Segmentation offset content segs) : Segment.sources segs = content := by
  induction h with
  | nil => rfl
  | plain _ _ _ ih | escape _ _ ih | malformed _ _ _ ih =>
    rw [Segment.sources, List.flatMap_cons, ← Segment.sources, ih]
    rfl

/-! ## 2. Values and issues -/

namespace Segment

/-- What a segment of a segmentation stands for. -/
inductive StandsFor : Segment → List CodePoint → Prop where
  | plain {text : List Char} (h : '%' ∉ text) : StandsFor (.plain text) (CodePoint.ofChars text)
  /-- A well-formed escape is one code point, that of its number. -/
  | escape {offset : Int} {e : Escape} {p : CodePoint} (h : Escape.Spells e.render p.val) :
      StandsFor (.escape offset e) [p]
  | malformed {offset : Int} {raw : List Char} {fault : EscapeFault} :
      StandsFor (.malformed offset raw fault) [.ofChar '\ufffd']

/-- Whether a segment is a malformed escape. -/
def isMalformed : Segment → Bool
  | malformed _ _ _ => true
  | _ => false

/-- The issue `i` is at the segment and covers it. -/
def ReportedBy (seg : Segment) (i : EscapeIssue) : Prop :=
  seg.offset? = some i.offset ∧ i.length = seg.source.length

/-- **Every malformed escape has one issue**, and nothing else has any. -/
theorem reported (segs : List Segment) :
    Forall₂ ReportedBy (segs.filter isMalformed) (issues segs) := by
  induction segs with
  | nil => exact .nil
  | cons seg segs ih =>
    cases seg with
    | plain | escape => exact ih
    | malformed offset raw fault => exact .cons ⟨rfl, rfl⟩ ih

/-- The issues are at some of the escapes, in their order. -/
theorem sublist_issues (segs : List Segment) :
    ((issues segs).map EscapeIssue.offset).Sublist (segs.filterMap offset?) := by
  induction segs with
  | nil => exact .slnil
  | cons seg segs ih =>
    cases seg with
    | plain => exact ih
    | escape offset e => exact ih.cons offset
    | malformed offset raw fault => exact ih.cons_cons offset

end Segment

/-- **Values are put together segment by segment.** -/
theorem Segmentation.stands {offset : Int} {content : List Char} {segs : List Segment}
    (h : Segmentation offset content segs) :
    Forall₂ Segment.StandsFor segs (segs.map Segment.value) := by
  induction h with
  | nil => exact .nil
  | plain _ hplain _ ih => exact .cons (.plain hplain) ih
  | escape hspells _ ih => exact .cons (.escape hspells) ih
  | malformed _ _ _ ih => exact .cons .malformed ih

/-! ## 3. Where the escapes are -/

/-- The offsets are increasing, and those of percent signs of the content. -/
def AtSigns (offset : Int) (content : List Char) (offsets : List Int) : Prop :=
  offsets.Pairwise (· < ·) ∧ ∀ o ∈ offsets, ∃ k : Nat, o = offset + k ∧ content[k]? = some '%'

namespace AtSigns

variable {offset : Int} {offsets : List Int}

/-- What is put in front of the content moves the signs. -/
theorem shift {before rest : List Char} (h : AtSigns (offset + before.length) rest offsets) :
    AtSigns offset (before ++ rest) offsets := by
  refine ⟨h.1, fun o ho => ?_⟩
  obtain ⟨k, rfl, hk⟩ := h.2 o ho
  refine ⟨before.length + k, by omega, ?_⟩
  rwa [List.getElem?_append_right (Nat.le_add_right _ _), Nat.add_sub_cancel_left]

/-- A sign in front of the others. -/
theorem cons {before rest : List Char} (hsign : before.head? = some '%')
    (h : AtSigns (offset + before.length) rest offsets) :
    AtSigns offset (before ++ rest) (offset :: offsets) := by
  obtain ⟨more, rfl⟩ := List.head?_eq_some_iff.mp hsign
  refine ⟨List.pairwise_cons.mpr ⟨fun o ho => ?_, h.1⟩, fun o ho => ?_⟩
  · obtain ⟨k, rfl, -⟩ := h.2 o ho
    rw [List.length_cons]
    omega
  · rcases List.mem_cons.mp ho with rfl | ho
    · exact ⟨0, (Int.add_zero o).symm, rfl⟩
    · exact h.shift.2 o ho

theorem sublist {content : List Char} {kept : List Int} (h : AtSigns offset content offsets)
    (hkept : kept.Sublist offsets) : AtSigns offset content kept :=
  ⟨h.1.sublist hkept, fun o ho => h.2 o (hkept.subset ho)⟩

end AtSigns

theorem Escape.head?_render (e : Escape) : e.render.head? = some '%' := by
  unfold render
  split <;> rfl

/-- **Escapes stand at percent signs**, in the order of the content. -/
theorem Segmentation.signs {offset : Int} {content : List Char} {segs : List Segment}
    (h : Segmentation offset content segs) :
    AtSigns offset content (segs.filterMap Segment.offset?) := by
  induction h with
  | nil => exact ⟨.nil, fun o ho => absurd ho List.not_mem_nil⟩
  | plain _ _ _ ih => exact ih.shift
  | escape _ _ ih => exact ih.cons (Escape.head?_render _)
  | malformed hsign _ _ ih => exact ih.cons hsign

/-! ## 4. Decoding -/

/-- **Decoding keeps the spelling, where it answers.**  For any content at any offset, decoding
breaks off at the first escape whose number is not converted, and answers the segments if there is no
such escape.  The segments cut the content and spell it; its value is put together from what they
stand for, one after the other; every malformed escape has one issue, and nothing else has any; and
escapes and issues are at percent signs of the content, each behind the one before. -/
theorem decode_keeps_spelling (content : List Char) (base : Int) :
    let segs := decode base content
    Cut segs (decode? base content) ∧
      Segmentation base content segs ∧
      Segment.sources segs = content ∧
      (∃ parts, Forall₂ Segment.StandsFor segs parts ∧ Segment.values segs = parts.flatten) ∧
      Forall₂ Segment.ReportedBy (segs.filter Segment.isMalformed) (Segment.issues segs) ∧
      AtSigns base content (segs.filterMap Segment.offset?) ∧
      AtSigns base content ((Segment.issues segs).map EscapeIssue.offset) := by
  intro segs
  have hcut := segmentation_decode base content
  exact ⟨cut_segments? _ base content, hcut, hcut.sources_eq, ⟨_, hcut.stands, List.flatMap_def⟩,
    Segment.reported segs, hcut.signs, hcut.signs.sublist (Segment.sublist_issues segs)⟩

/-- A decimal code for zero, written with one digit more than can be read. -/
def longZero : List Char :=
  '%' :: '/' :: List.replicate 4301 '0' ++ ['/']

theorem Radix.number_replicate_zero (n : Nat) : decimal.number (List.replicate n '0') = 0 := by
  unfold number
  induction n with
  | zero => rfl
  | succ n ih => exact ih

/-- **Not all content is decoded**, although the code of this content is that of a code point. -/
theorem longZero_not_decoded : decode? 0 longZero = .error (.reading 4301) := by
  have hzeros : Radix.decimal.Denotes (List.replicate 4301 '0') 0 := by
    refine Radix.denotes_iff.mpr ⟨List.cons_ne_nil _ _, ?_, Radix.number_replicate_zero _⟩
    refine List.find?_eq_none.mpr fun c hc => ?_
    obtain rfl := List.eq_of_mem_replicate hc
    decide
  have hlong : TooLong longZero (.reading 4301) := by
    have h := TooLong.reading hzeros (by rw [List.length_replicate]; decide)
    rwa [List.length_replicate] at h
  have hfault := Escape.conversionFault?_eq_some_iff.mpr ⟨_, List.prefix_rfl, hlong⟩
  have hscan : Escape.scan? longZero.tail = .error (.reading 4301) := by
    unfold Escape.conversionFault? at hfault
    split at hfault
    · rename_i h
      rw [← Option.some.inj hfault]
      exact h
    · cases hfault
  rw [decode?, longZero, List.cons_append, segments?, if_neg Bool.false_ne_true, if_pos rfl]
  exact congrArg (· >>= _) hscan

end ContractLint
