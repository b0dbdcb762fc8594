/-
# Moving a text

When text is put in front of a text, its points move: the lines by the number of new line feeds, the
offsets by the number of new characters.  A `Motion` says where points go.  It moves whatever keeps
points: tokens with the escapes in their segments, findings and diagnostics.

The scan never looks at where it is.  So the scan of a text that starts somewhere else is the moved
scan (`pieces_shift`), at any distance, which is why coordinates are integers.
-/
import ContractLint.Proofs.Tiling
import ContractLint.Token.Report
import Mathlib.Data.List.Forall2

namespace ContractLint

open List (Forall₂)

/-! ## 1. Motions -/

/-- Where points of a text go.  Escapes keep no line, only their offset. -/
structure Motion where
  place : Location → Location
  offset : Int → Int

/-- Down by a number of lines, and on by a number of characters.  Columns stay. -/
def Motion.shift (lines chars : Int) : Motion where
  place l := ⟨l.line + lines, l.column, l.offset + chars⟩
  offset o := o + chars

def Segment.move (m : Motion) : Segment → Segment
  | plain text => plain text
  | escape offset e => escape (m.offset offset) e
  | malformed offset raw fault => malformed (m.offset offset) raw fault

def EscapeIssue.move (m : Motion) (i : EscapeIssue) : EscapeIssue :=
  { i with offset := m.offset i.offset }

/-- A token somewhere else: nothing but its place and the offsets of its escapes changes. -/
def Token.move (m : Motion) (t : Token) : Token :=
  { t with location := m.place t.location, segments := t.segments.map (Segment.move m) }

def Lexeme.move (m : Motion) (x : Lexeme) : Lexeme :=
  { x with
    segments := x.segments.map (Segment.move m)
    issues := x.issues.map (EscapeIssue.move m) }

def Finding.move (m : Motion) (f : Finding) : Finding :=
  { f with location := m.place f.location }

def Diagnostic.move (m : Motion) (d : Diagnostic) : Diagnostic :=
  { d with location := m.place d.location }

variable (m : Motion)

/-! ## 2. What a motion leaves as it is -/

namespace Segment

@[simp] theorem source_move (seg : Segment) : (seg.move m).source = seg.source := by
  cases seg <;> rfl

@[simp] theorem value_move (seg : Segment) : (seg.move m).value = seg.value := by
  cases seg <;> rfl

theorem issue?_move (seg : Segment) :
    (seg.move m).issue? = seg.issue?.map (EscapeIssue.move m) := by
  cases seg <;> rfl

@[simp] theorem sources_map_move (segs : List Segment) :
    sources (segs.map (move m)) = sources segs := by
  simp [sources, List.flatMap_map]

@[simp] theorem values_map_move (segs : List Segment) :
    values (segs.map (move m)) = values segs := by
  simp [values, List.flatMap_map]

theorem issues_map_move (segs : List Segment) :
    issues (segs.map (move m)) = (issues segs).map (EscapeIssue.move m) := by
  simp [issues, List.filterMap_map, List.map_filterMap, issue?_move]

end Segment

/-- **A token stands for the same wherever it is.** -/
@[simp] theorem Token.value_move (t : Token) : (t.move m).value = t.value := by
  unfold Token.value Token.move
  split <;> simp_all [Token.commentText]

theorem Finding.diagnostic_move (path : String) (f : Finding) :
    (f.move m).diagnostic path = (f.diagnostic path).move m := by
  unfold Finding.diagnostic Finding.move
  dsimp only
  split <;> rfl

/-! ## 3. Lexemes -/

variable (lines chars : Int)

theorem Segment.ofScan_shift (offset : Int) (cs : List Char) (s : Escape.Scan) :
    Segment.ofScan (offset + chars) cs s =
      (Segment.ofScan offset cs s).move (.shift lines chars) := by
  unfold Segment.ofScan
  split <;> rfl

theorem segments_shift (stop : Char → Bool) (offset : Int) (cs : List Char) :
    segments stop (offset + chars) cs =
      (segments stop offset cs).map (Segment.move (.shift lines chars)) := by
  fun_induction segments stop offset cs with
  | case1 => simp [segments]
  | case2 offset c rest hstop => simp [segments, hstop]
  | case3 offset rest s hstop =>
    rename_i ih
    have hoffset : offset + chars + 1 + (s.taken : Int) = offset + 1 + s.taken + chars := by omega
    rw [segments, if_neg hstop, if_pos rfl, List.map_cons, ← ih, ← Segment.ofScan_shift, ← hoffset]
  | case4 offset c rest hstop hc tail =>
    rename_i ih
    have hoffset : offset + chars + 1 + (tail.length : Int) = offset + 1 + tail.length + chars := by
      omega
    rw [segments, if_neg hstop, if_neg hc, List.map_cons, ← ih, ← hoffset]
    rfl

namespace Lexeme

theorem commentIssues_shift (offset : Int) (cs : List Char) :
    commentIssues (offset + chars) cs =
      (commentIssues offset cs).map (EscapeIssue.move (.shift lines chars)) := by
  fun_induction commentIssues offset cs with
  | case1 => simp [commentIssues]
  | case2 offset c rest h s ih =>
    have hoffset : offset + chars + 1 + (s.taken : Int) = offset + 1 + s.taken + chars := by omega
    have hissue : (Segment.ofScan (offset + chars) rest s).issue?.toList =
        (Segment.ofScan offset rest s).issue?.toList.map
          (EscapeIssue.move (.shift lines chars)) := by
      rw [Segment.ofScan_shift lines, Segment.issue?_move]
      cases (Segment.ofScan offset rest s).issue? <;> rfl
    rw [commentIssues, if_pos h, List.map_append, ← ih, ← hoffset, ← hissue]
  | case3 offset c rest h ih =>
    rw [commentIssues, if_neg h, ← ih, show offset + chars + 1 = offset + 1 + chars by omega]

theorem manifest_shift (offset : Int) (line : List Char) :
    manifest (offset + chars) line = (manifest offset line).move (.shift lines chars) := by
  have hsegments : ContractLint.segments (· == '"') (offset + chars + 1) line =
      (ContractLint.segments (· == '"') (offset + 1) line).map
        (Segment.move (.shift lines chars)) := by
    rw [← segments_shift, show offset + chars + 1 = offset + 1 + chars by omega]
  unfold manifest
  dsimp only
  rw [hsegments, Segment.sources_map_move, Segment.issues_map_move]
  split <;> rfl

theorem string_shift (offset : Int) (cs : List Char) :
    string (offset + chars) cs = (string offset cs).move (.shift lines chars) := by
  unfold string
  dsimp only
  split
  · unfold verbatim
    split
    · rfl
    · have hplain (value : List Char) :
          (if value = [] then [] else [Segment.plain value]).map
            (Segment.move (.shift lines chars)) = if value = [] then [] else [.plain value] := by
        split <;> rfl
      dsimp only
      split <;> simp only [move, hplain, List.map_nil]
  · exact manifest_shift lines chars offset _

theorem characterContent_shift (offset : Int) (c : Char) (rest : List Char) :
    characterContent (offset + chars) c rest =
      ((characterContent offset c rest).1.move (.shift lines chars),
        (characterContent offset c rest).2) := by
  unfold characterContent
  dsimp only
  split
  · rw [Segment.ofScan_shift lines]
  · rfl

theorem characterKind_move (seg : Segment) : characterKind (seg.move m) = characterKind seg := by
  cases seg with
  | escape offset e =>
    obtain ⟨spelling, value⟩ := e
    cases spelling <;> rfl
  | plain | malformed => rfl

theorem character_shift (offset : Int) (cs : List Char) :
    character (offset + chars) cs = (character offset cs).move (.shift lines chars) := by
  unfold character
  split
  · rfl
  split
  · rfl
  · rw [show offset + chars + 1 = offset + 1 + chars by omega, characterContent_shift lines]
    dsimp only
    rw [characterKind_move, ← List.map_singleton, Segment.issues_map_move]
    rfl

end Lexeme

/-- **A lexeme does not depend on where it is.** -/
theorem lexeme_shift (offset : Int) (c : Char) (cs : List Char) :
    lexeme (offset + chars) c cs = (lexeme offset c cs).move (.shift lines chars) := by
  unfold lexeme
  split
  · rw [Lexeme.comment, Lexeme.comment, show offset + chars + 2 = offset + 2 + chars by omega,
      Lexeme.commentIssues_shift lines]
    rfl
  split
  · exact Lexeme.string_shift lines chars offset cs
  split
  · exact Lexeme.character_shift lines chars offset cs
  split
  · rfl
  split
  · rfl
  · unfold Lexeme.operator
    split <;> rfl

/-! ## 4. The scan -/

/-- A piece whose token and findings are those of another piece, moved. -/
structure Piece.Moved (p q : Piece) : Prop where
  token : q.token = p.token.map (Token.move m)
  findings : q.findings = p.findings.map (Finding.move m)

theorem Motion.shift_next (l : Location) (c : Char) :
    ((shift lines chars).place l).next c = (shift lines chars).place (l.next c) := by
  unfold Location.next shift
  dsimp only
  split
  · rw [Int.add_right_comm l.line, Int.add_right_comm l.offset]
  · rw [Int.add_right_comm l.offset]

theorem Motion.shift_after (l : Location) (cs : List Char) :
    ((shift lines chars).place l).after cs = (shift lines chars).place (l.after cs) := by
  induction cs generalizing l with
  | nil => rfl
  | cons c cs ih => rw [Location.after_cons, Location.after_cons, shift_next, ih]

theorem Piece.moved_ofIndent (loc : Location) (indent : List Char) (blank : Bool) :
    Moved (.shift lines chars) (ofIndent loc indent blank)
      (ofIndent ((Motion.shift lines chars).place loc) indent blank) := by
  unfold ofIndent
  dsimp only
  split
  · exact ⟨rfl, rfl⟩
  · refine ⟨rfl, ?_⟩
    dsimp only
    split
    · rw [Motion.shift_after]
      rfl
    · rfl

theorem Piece.moved_ofLexeme (loc : Location) (text : List Char) (x : Lexeme) :
    Moved (.shift lines chars) (ofLexeme loc text x)
      (ofLexeme ((Motion.shift lines chars).place loc) text (x.move (.shift lines chars))) := by
  refine ⟨rfl, ?_⟩
  simp only [ofLexeme, Lexeme.move, List.map_map]
  refine List.map_congr_left fun issue _ => ?_
  have hdistance : issue.offset + chars - (loc.offset + chars) = issue.offset - loc.offset := by
    omega
  simp only [Function.comp_apply, EscapeIssue.move, Finding.move, ← Motion.shift_after]
  simp only [Motion.shift, hdistance]

/-- **The scan of a text does not depend on where the text is.** -/
theorem pieces_shift (fresh : Bool) (loc : Location) (cs : List Char) :
    Forall₂ (Piece.Moved (.shift lines chars)) (pieces fresh loc cs)
      (pieces fresh ((Motion.shift lines chars).place loc) cs) := by
  fun_induction pieces fresh loc cs with
  | case1 => simp [pieces]
  | case2 loc c rest indent after blank =>
    rename_i ih
    rw [pieces]
    refine .cons ?_ (Motion.shift_after lines chars loc indent ▸ ih)
    exact Piece.moved_ofIndent lines chars loc indent blank
  | case3 loc rest ih =>
    rw [pieces, if_pos rfl, Motion.shift_next]
    exact ih
  | case4 loc c rest hc hskip ih =>
    rw [pieces, if_neg hc, if_pos hskip, Motion.shift_next]
    exact ih
  | case5 loc c rest hc hskip x text =>
    rename_i ih
    have hx : lexeme ((Motion.shift lines chars).place loc).offset c rest =
        x.move (.shift lines chars) := lexeme_shift lines chars loc.offset c rest
    rw [pieces, if_neg hc, if_neg hskip, hx]
    refine .cons ?_ (Motion.shift_after lines chars loc text ▸ ih)
    exact Piece.moved_ofLexeme lines chars loc text x

end ContractLint
