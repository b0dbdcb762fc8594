/-
# UTF-8

Bytes as text.  The first byte of a character says how many follow and within which bounds; the
bounds of the second byte exclude overlong forms, surrogates and numbers past the last code point.
What cannot be read is reported at the first byte of the character.  One byte order mark at the
start is no part of the text.
-/

namespace ContractLint.Text.Utf8

/-- Why bytes are no text. -/
inductive Reason where
  | invalidStart
  | invalidContinuation
  | unexpectedEnd
deriving DecidableEq, Repr, Inhabited

/-- The wording of a reason. -/
def Reason.message : Reason → String
  | invalidStart => "invalid start byte"
  | invalidContinuation => "invalid continuation byte"
  | unexpectedEnd => "unexpected end of data"

/-- Why bytes are no text, and the first byte of the character that could not be read. -/
structure Fault where
  reason : Reason
  position : Nat
deriving DecidableEq, Repr, Inhabited

/-- The bits of a first byte that count, and the bounds of the bytes that follow it. -/
structure Lead where
  bits : Nat
  follow : List (Nat × Nat)
deriving DecidableEq, Repr, Inhabited

/-- The bounds of a byte that may be any continuation. -/
def continuation : Nat × Nat := (0x80, 0xbf)

/-- What a first byte announces. -/
def lead? (b : UInt8) : Option Lead :=
  let n := b.toNat
  if n < 0x80 then some ⟨n, []⟩
  else if n < 0xc2 then none
  else if n < 0xe0 then some ⟨n - 0xc0, [continuation]⟩
  else if n < 0xf0 then
    let second := if n = 0xe0 then (0xa0, 0xbf) else if n = 0xed then (0x80, 0x9f) else continuation
    some ⟨n - 0xe0, [second, continuation]⟩
  else if n < 0xf5 then
    let second := if n = 0xf0 then (0x90, 0xbf) else if n = 0xf4 then (0x80, 0x8f) else continuation
    some ⟨n - 0xf0, [second, continuation, continuation]⟩
  else none

/-- The number of a character whose bits so far are `bits`, read from continuation bytes within
bounds. -/
def readFollow (bits : Nat) : List (Nat × Nat) → List UInt8 → Except Reason Nat
  | [], _ => .ok bits
  | _ :: _, [] => .error .unexpectedEnd
  | (low, high) :: bounds, b :: bs =>
    if low ≤ b.toNat ∧ b.toNat ≤ high then readFollow (bits * 0x40 + b.toNat % 0x40) bounds bs
    else .error .invalidContinuation

/-- The characters of bytes that start at a position. -/
def decodeFrom (position : Nat) : List UInt8 → Except Fault (List Char)
  | [] => .ok []
  | b :: bs =>
    match lead? b with
    | none => .error ⟨.invalidStart, position⟩
    | some lead =>
      match readFollow lead.bits lead.follow bs with
      | .error reason => .error ⟨reason, position⟩
      | .ok n =>
        (decodeFrom (position + 1 + lead.follow.length) (bs.drop lead.follow.length)).map
          (Char.ofNat n :: ·)
termination_by bs => bs.length
decreasing_by simp only [List.length_drop, List.length_cons]; omega

/-- The byte order mark. -/
def byteOrderMark : List UInt8 := [0xef, 0xbb, 0xbf]

/-- The bytes without the byte order mark at their start; a part of one that is all there is counts
as a whole one. -/
def dropMark (bs : List UInt8) : List UInt8 :=
  if bs.isPrefixOf byteOrderMark then []
  else if byteOrderMark.isPrefixOf bs then bs.drop 3
  else bs

/-- The text of a file's bytes. -/
def decode (bs : List UInt8) : Except Fault (List Char) :=
  decodeFrom 0 (dropMark bs)

end ContractLint.Text.Utf8
