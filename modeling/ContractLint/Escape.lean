/-
# Escapes of literal content

A percent sign starts an escape.  It is NAMED, a sign followed by one character of a closed table
(`%N` is a line feed), or NUMERIC, a character code between slashes in one of four radices:

    %/65/           decimal
    %/0x41/         hexadecimal
    %/0c101/        octal
    %/0b1000001/    binary

`Escape.scan` reads one escape from the characters after the sign.  It always answers: with the
escape, which keeps its exact spelling, or with the fault that makes it malformed; and with the
number of characters that belong to it either way.  A scan never reaches over a line feed.

What runs is `Escape.scan?`, for numbers of more than `Text.maxDigits` decimal digits are neither read
nor written: at a code that asks for one, the scan breaks off and there is no answer at all.  Where it
does not break off, it answers what `Escape.scan` says.
-/
import ContractLint.CodePoint
import ContractLint.Text.Alphanumeric
import ContractLint.Text.Integer
import ContractLint.Text.Quoted

namespace ContractLint

/-! ## 1. Radices -/

/-- The radix in which a numeric escape is written. -/
inductive Radix where
  | decimal
  | hexadecimal
  | octal
  | binary
deriving DecidableEq, Repr, Inhabited

namespace Radix

/-- The number of digits of a radix. -/
def base : Radix → Nat
  | decimal => 10
  | hexadecimal => 16
  | octal => 8
  | binary => 2

/-- The radix's name in messages. -/
def label : Radix → String
  | decimal => "decimal"
  | hexadecimal => "hexadecimal"
  | octal => "octal"
  | binary => "binary"

/-- The radix that a letter after a leading zero announces, in either case. -/
def ofLetter? (c : Char) : Option Radix :=
  if c = 'x' ∨ c = 'X' then some hexadecimal
  else if c = 'c' ∨ c = 'C' then some octal
  else if c = 'b' ∨ c = 'B' then some binary
  else none

end Radix

/-- The value of a hexadecimal digit. -/
def hexValue? (c : Char) : Option Nat :=
  if '0' ≤ c ∧ c ≤ '9' then some (c.toNat - '0'.toNat)
  else if 'a' ≤ c ∧ c ≤ 'f' then some (c.toNat - 'a'.toNat + 10)
  else if 'A' ≤ c ∧ c ≤ 'F' then some (c.toNat - 'A'.toNat + 10)
  else none

namespace Radix

/-- The value of a digit of this radix. -/
def digitValue? (r : Radix) (c : Char) : Option Nat :=
  (hexValue? c).filter (· < r.base)

/-- The number that a run of digits denotes. -/
def number (r : Radix) (digits : List Char) : Nat :=
  digits.foldl (fun n c => n * r.base + (r.digitValue? c).getD 0) 0

end Radix

/-! ## 2. Well-formed escapes -/

/-- How an escape is written. -/
inductive Spelling where
  /-- The percent sign and a letter of the table. -/
  | named (letter : Char)
  /-- Digits between slashes, after the radix marker as it was written (`0x`, `0X`, ...). -/
  | numeric (radix : Radix) (marker digits : List Char)
deriving DecidableEq, Repr, Inhabited

/-- A well-formed escape: its spelling and the code point it stands for. -/
structure Escape where
  spelling : Spelling
  value : CodePoint
deriving DecidableEq, Repr, Inhabited

/-- Why an escape is malformed. -/
inductive EscapeFault where
  /-- Nothing follows the sign on its line. -/
  | lineEnd
  /-- The character after the sign is not in the table. -/
  | unknown (letter : Char)
  /-- No slash closes the code. -/
  | unterminated
  /-- Nothing stands between the slashes. -/
  | empty
  /-- A character of the code is no digit of its radix. -/
  | badDigit (digit : Char) (radix : Radix) (body : List Char)
  /-- The code is greater than every code point. -/
  | outOfRange (code : Nat)
deriving DecidableEq, Repr, Inhabited

/-- The wording of a fault. -/
def EscapeFault.message : EscapeFault → String
  | lineEnd => "'%' at end of line"
  | unknown letter => s!"unknown escape '%{letter}'"
  | unterminated => "unterminated numeric escape (missing closing '/')"
  | empty => "empty numeric escape"
  | badDigit digit radix body =>
    let shown := Text.quoted digit.toString
    let code := String.ofList body
    s!"invalid digit {shown} in {radix.label} escape '%/{code}/'"
  | outOfRange code => s!"character code {code} out of range"

namespace Escape

/-- The character that a named escape stands for. -/
def namedValue? : Char → Option Char
  | 'A' => some '@'
  | 'B' => some '\x08'
  | 'C' => some '^'
  | 'D' => some '$'
  | 'F' => some '\x0c'
  | 'H' => some '\\'
  | 'L' => some '~'
  | 'N' => some '\n'
  | 'Q' => some '\x60'
  | 'R' => some '\r'
  | 'S' => some '#'
  | 'T' => some '\t'
  | 'U' => some '\x00'
  | 'V' => some '|'
  | '%' => some '%'
  | '\'' => some '\''
  | '"' => some '"'
  | '(' => some '['
  | ')' => some ']'
  | '<' => some '{'
  | '>' => some '}'
  | _ => none

/-- The escape as it is written. -/
def render (e : Escape) : List Char :=
  match e.spelling with
  | .named letter => ['%', letter]
  | .numeric _ marker digits => '%' :: '/' :: (marker ++ digits) ++ ['/']

/-! ## 3. Scanning -/

/-- What a scan found, and how many characters after the percent sign belong to it. -/
structure Scan where
  outcome : Except EscapeFault Escape
  taken : Nat

/-- The radix, the marker and the digits of a numeric code.  A marker needs a digit after it. -/
def splitMarker : List Char → Radix × List Char × List Char
  | '0' :: letter :: d :: ds =>
    match Radix.ofLetter? letter with
    | some r => (r, ['0', letter], d :: ds)
    | none => (.decimal, [], '0' :: letter :: d :: ds)
  | body => (.decimal, [], body)

/-- Reads a closed numeric code. -/
def ofCode (body : List Char) : Except EscapeFault Escape :=
  let (radix, marker, digits) := splitMarker body
  if digits = [] then .error .empty
  else match digits.find? fun d => (radix.digitValue? d).isNone with
    | some d => .error (.badDigit d radix body)
    | none =>
      let code := radix.number digits
      if h : code < 0x110000 then .ok ⟨.numeric radix marker digits, ⟨code, h⟩⟩
      else .error (.outOfRange code)

/-- Whether `c` may stand inside a numeric code; slash, line feed and quotes may not. -/
def isCodeChar (c : Char) : Bool :=
  c != '/' && c != '\n' && c != '"' && c != '\''

/-- Scans a numeric escape from the characters after its first slash. -/
def scanNumeric (cs : List Char) : Scan :=
  let body := cs.takeWhile isCodeChar
  match cs.drop body.length with
  | '/' :: _ => ⟨ofCode body, body.length + 2⟩
  | _ => ⟨.error .unterminated, (cs.takeWhile Text.isWordChar).length + 1⟩

/-- Scans one escape from the characters after its percent sign. -/
def scan : List Char → Scan
  | [] => ⟨.error .lineEnd, 0⟩
  | c :: cs =>
    if c = '\n' then ⟨.error .lineEnd, 0⟩
    else if c = '/' then scanNumeric cs
    else match namedValue? c with
      | some v => ⟨.ok ⟨.named c, .ofChar v⟩, 1⟩
      | none => ⟨.error (.unknown c), 1⟩

/-- The code point of a scanned escape; a malformed one stands for the replacement character. -/
def Scan.value (s : Scan) : CodePoint :=
  match s.outcome with
  | .ok e => e.value
  | .error _ => .replacement

/-- Scans the escape at `pos` of a text, looking no further than `limit`. -/
def scanAt (text : List Char) (pos : Nat) (limit : Option Nat) : Scan :=
  scan ((text.take (limit.getD text.length)).drop (pos + 1))

/-- Whether a percent sign in a comment is meant as an escape: comments are free text, so only an
upper-case letter or a slash after it, here the first of `cs`, makes it one. -/
def isIntended : List Char → Bool
  | [] => false
  | c :: _ => c == '/' || ('A' ≤ c && c ≤ 'Z')

end Escape

/-! ## 4. Scanning where numbers are bounded -/

/-- Why a number is not converted from its digits, or to them. -/
inductive ConversionFault where
  /-- A run of decimal digits is too long to be read. -/
  | reading (digits : Nat)
  /-- A number has too many decimal digits to be written. -/
  | writing
deriving DecidableEq, Repr, Inhabited

/-- The wording of a fault. -/
def ConversionFault.message (fault : ConversionFault) : String :=
  let limit := s!"Exceeds the limit ({Text.maxDigits} digits) for integer string conversion"
  let advice := "use sys.set_int_max_str_digits() to increase the limit"
  match fault with
  | reading digits => s!"{limit}: value has {digits} digits; {advice}"
  | writing => s!"{limit}; {advice}"

/-- Reads a run of digits.  Only decimal runs are bounded, leading zeros included. -/
def Radix.number? (r : Radix) (digits : List Char) : Except ConversionFault Nat :=
  if r = .decimal ∧ Text.maxDigits < digits.length then .error (.reading digits.length)
  else .ok (r.number digits)

namespace Escape

/-- The fault of a code that is no code point.  Its message writes the code. -/
def outOfRange? (code : Nat) : Except ConversionFault EscapeFault :=
  if Nat.pow 10 Text.maxDigits ≤ code then .error .writing else .ok (.outOfRange code)

/-- Reads a closed numeric code, if its number can be converted. -/
def ofCode? (body : List Char) : Except ConversionFault (Except EscapeFault Escape) :=
  let (radix, marker, digits) := splitMarker body
  if digits = [] then .ok (.error .empty)
  else match digits.find? fun d => (radix.digitValue? d).isNone with
    | some d => .ok (.error (.badDigit d radix body))
    | none => do
      let code ← radix.number? digits
      if h : code < 0x110000 then return .ok ⟨.numeric radix marker digits, ⟨code, h⟩⟩
      else return .error (← outOfRange? code)

/-- Scans a numeric escape from the characters after its first slash, if its number can be
converted. -/
def scanNumeric? (cs : List Char) : Except ConversionFault Scan :=
  let body := cs.takeWhile isCodeChar
  match cs.drop body.length with
  | '/' :: _ => do return ⟨← ofCode? body, body.length + 2⟩
  | _ => .ok ⟨.error .unterminated, (cs.takeWhile Text.isWordChar).length + 1⟩

/-- Scans one escape from the characters after its percent sign, if its number can be converted. -/
def scan? : List Char → Except ConversionFault Scan
  | [] => .ok ⟨.error .lineEnd, 0⟩
  | c :: cs =>
    if c = '\n' then .ok ⟨.error .lineEnd, 0⟩
    else if c = '/' then scanNumeric? cs
    else match namedValue? c with
      | some v => .ok ⟨.ok ⟨.named c, .ofChar v⟩, 1⟩
      | none => .ok ⟨.error (.unknown c), 1⟩

/-- Scans the escape at `pos` of a text as `scanAt` does, if its number can be converted. -/
def scanAt? (text : List Char) (pos : Nat) (limit : Option Nat) : Except ConversionFault Scan :=
  scan? ((text.take (limit.getD text.length)).drop (pos + 1))

/-- Why the scan of an escape breaks off, if it does. -/
def conversionFault? (cs : List Char) : Option ConversionFault :=
  match scan? cs with
  | .error fault => some fault
  | .ok _ => none

end Escape

end ContractLint
