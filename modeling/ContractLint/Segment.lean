/-
# Segments of literal content

The content of a literal is a sequence of plain runs, escapes and malformed escapes.  `segments`
cuts content into them up to a stopping character; `decode` cuts all of it.  Everything else about
the content is read off its segments: what it stands for (`Segment.value`), how it was written
(`Segment.source`), and which escapes are malformed (`Segment.issue?`).

What runs is `segments?` and `decode?`, which break off at the first escape whose number cannot be
converted.
-/
import ContractLint.Escape

namespace ContractLint

/-- A malformed escape: the offset of its percent sign, its length and what is wrong. -/
structure EscapeIssue where
  offset : Int
  length : Nat
  fault : EscapeFault
deriving DecidableEq, Repr, Inhabited

/-- A piece of literal content. -/
inductive Segment where
  /-- Text that stands for itself. -/
  | plain (text : List Char)
  /-- A well-formed escape and the offset of its percent sign. -/
  | escape (offset : Int) (escape : Escape)
  /-- A malformed escape as it is written, the offset of its percent sign and its fault. -/
  | malformed (offset : Int) (raw : List Char) (fault : EscapeFault)
deriving DecidableEq, Repr, Inhabited

namespace Segment

/-- What a segment stands for. -/
def value : Segment → List CodePoint
  | plain text => CodePoint.ofChars text
  | escape _ e => [e.value]
  | malformed _ _ _ => [CodePoint.replacement]

/-- How a segment is written. -/
def source : Segment → List Char
  | plain text => text
  | escape _ e => e.render
  | malformed _ raw _ => raw

/-- The issue of a malformed escape. -/
def issue? : Segment → Option EscapeIssue
  | malformed offset raw fault => some ⟨offset, raw.length, fault⟩
  | _ => none

/-- The segment of a scan at `offset`, where `cs` follows the percent sign. -/
def ofScan (offset : Int) (cs : List Char) (s : Escape.Scan) : Segment :=
  match s.outcome with
  | .ok e => .escape offset e
  | .error fault => .malformed offset ('%' :: cs.take s.taken) fault

/-- Why a segment cannot be scanned, if it cannot.  Plain runs are not scanned. -/
def conversionFault? : Segment → Option ConversionFault
  | plain _ => none
  | escape _ e => Escape.conversionFault? e.render.tail
  | malformed _ raw _ => Escape.conversionFault? raw.tail

/-- What a run of segments stands for. -/
def values (segs : List Segment) : List CodePoint :=
  segs.flatMap value

/-- How a run of segments is written. -/
def sources (segs : List Segment) : List Char :=
  segs.flatMap source

/-- The issues of a run of segments. -/
def issues (segs : List Segment) : List EscapeIssue :=
  segs.filterMap issue?

end Segment

/-- Whether `c` belongs to a plain run: it starts no escape and does not stop the content. -/
def isPlain (stop : Char → Bool) (c : Char) : Bool :=
  c != '%' && !stop c

/-- The segments of content at `offset`, up to the first character outside an escape that
satisfies `stop`. -/
def segments (stop : Char → Bool) (offset : Int) (cs : List Char) : List Segment :=
  match cs with
  | [] => []
  | c :: rest =>
    if stop c then []
    else if c = '%' then
      let s := Escape.scan rest
      Segment.ofScan offset rest s ::
        segments stop (offset + 1 + s.taken) (rest.drop s.taken)
    else
      let tail := rest.takeWhile (isPlain stop)
      .plain (c :: tail) ::
        segments stop (offset + 1 + tail.length) (rest.drop tail.length)
termination_by cs.length
decreasing_by all_goals simp only [List.length_drop, List.length_cons]; omega

/-- The segments of literal content, its quotes left off, whose first character is at `offset`. -/
def decode (offset : Int) (content : List Char) : List Segment :=
  segments (fun _ => false) offset content

/-- The segments of content as `segments` cuts it, if all its numbers can be converted. -/
def segments? (stop : Char → Bool) (offset : Int) (cs : List Char) :
    Except ConversionFault (List Segment) :=
  match cs with
  | [] => .ok []
  | c :: rest =>
    if stop c then .ok []
    else if c = '%' then do
      let s ← Escape.scan? rest
      let segs ← segments? stop (offset + 1 + s.taken) (rest.drop s.taken)
      return Segment.ofScan offset rest s :: segs
    else do
      let tail := rest.takeWhile (isPlain stop)
      let segs ← segments? stop (offset + 1 + tail.length) (rest.drop tail.length)
      return .plain (c :: tail) :: segs
termination_by cs.length
decreasing_by all_goals simp only [List.length_drop, List.length_cons]; omega

/-- The segments of literal content as `decode` cuts it, if all its numbers can be converted. -/
def decode? (offset : Int) (content : List Char) : Except ConversionFault (List Segment) :=
  segments? (fun _ => false) offset content

end ContractLint
