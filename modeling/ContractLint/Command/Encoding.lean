/-
# Code points as output

Output is text, and a surrogate is no character.  A piece of output that holds one is not written
at all; the fault names the first run of surrogates.
-/
import ContractLint.CodePoint
import ContractLint.Text.Quoted

namespace ContractLint.Command

/-- The first run of surrogates in a piece of output: where it starts, the surrogate there, and how
many follow it. -/
structure EncodeFault where
  position : Nat
  point : CodePoint
  following : Nat
deriving DecidableEq, Repr, Inhabited

/-- The wording of a fault. -/
def EncodeFault.message (f : EncodeFault) : String :=
  let code := String.ofList (Text.hexDigits 4 f.point.val)
  let last := f.position + f.following
  let place :=
    if f.following = 0 then s!"character '\\u{code}' in position {f.position}"
    else s!"characters in position {f.position}-{last}"
  s!"'utf-8' codec can't encode {place}: surrogates not allowed"

/-- The text of a piece of output. -/
def encode (points : List CodePoint) : Except EncodeFault String :=
  let before := points.takeWhile fun p => !p.isSurrogate
  match points.drop before.length with
  | [] => .ok (String.ofList (before.map fun p => Char.ofNat p.val))
  | p :: after => .error ⟨before.length, p, (after.takeWhile CodePoint.isSurrogate).length⟩

/-- The text of pieces that are written one after the other, up to the first that cannot be, and
what was wrong with that one. -/
def encodeAll : List (List CodePoint) → String × Option EncodeFault
  | [] => ("", none)
  | piece :: pieces =>
    match encode piece with
    | .error fault => ("", some fault)
    | .ok text =>
      let (rest, fault) := encodeAll pieces
      (text ++ rest, fault)

end ContractLint.Command
