/-
# The smallest parts of a JSON text

A scanner takes a part of the text from the front and gives what follows it.
Strings and numbers are scanned in two ways: a value that is kept must be a text
and a number, while of one that is passed over only the form is looked at.

Key definitions: `Json.skipBlanks`, `Json.scanWord`, `Json.scanString`,
`Json.passString`, `Json.Numeral`, `Json.scanNumeral`, `Json.Numeral.number`.
-/
import TaskHost.Json.Fault

namespace TaskHost
namespace Json

/-- The rest of the text after blanks. -/
def skipBlanks (s : List Char) : List Char :=
  s.dropWhile fun c => c = ' ' || c = '\n' || c = '\t' || c = '\r'

/-- Takes the letters of a word one by one. -/
def scanWord : List Char → List Char → Except Fault (List Char)
  | [], s => .ok s
  | _ :: _, [] => .error (.taken .endInValue [])
  | w :: ws, c :: rest => if w = c then scanWord ws rest else .error ⟨.expectedIdent, c :: rest, 1⟩

/-! ### Strings -/

/-- The number that four hexadecimal digits write. -/
def hexQuad? (a b c d : Char) : Option Nat := Hex.nat? [a, b, c, d]

/-- The fault of an escape that is not followed by four hexadecimal digits: the
four next bytes are taken together. -/
def quadFault (s : List Char) : Fault :=
  if Utf8.size s < 4 then .taken .endInString [] else ⟨.invalidEscape, s, 4⟩

/-- The character that a letter stands for after a backslash. -/
def escapedChar? (c : Char) : Option Char :=
  if c = '"' then some '"'
  else if c = '\\' then some '\\'
  else if c = '/' then some '/'
  else if c = 'b' then some '\x08'
  else if c = 'f' then some '\x0c'
  else if c = 'n' then some '\n'
  else if c = 'r' then some '\r'
  else if c = 't' then some '\t'
  else none

/-- A code unit of the first half of a surrogate pair. -/
def isLeading (n : Nat) : Bool := 0xD800 ≤ n && n ≤ 0xDBFF

/-- A code unit of the second half of a surrogate pair. -/
def isTrailing (n : Nat) : Bool := 0xDC00 ≤ n && n ≤ 0xDFFF

/-- The character of a surrogate pair. -/
def pairChar (leading trailing : Nat) : Char :=
  Char.ofNat ((leading - 0xD800) * 0x400 + (trailing - 0xDC00) + 0x10000)

/-- The fault of a leading surrogate, by what follows it: the next byte is taken,
or what follows a second escape is no number or no trailing surrogate. -/
def pairFault : List Char → Fault
  | [] => .taken .endInString []
  | '\\' :: [] => .taken .endInString []
  | '\\' :: 'u' :: a :: b :: c :: d :: rest =>
    match hexQuad? a b c d with
    | some _ => .taken .loneSurrogate rest
    | none => quadFault (a :: b :: c :: d :: rest)
  | '\\' :: 'u' :: rest => quadFault rest
  | '\\' :: rest => ⟨.unfinishedSurrogate, rest, 1⟩
  | rest => ⟨.unfinishedSurrogate, rest, 1⟩

/-- The characters of a string, from after its opening quote to after its closing
one. -/
def scanString : List Char → Except Fault (List Char × List Char)
  | [] => .error (.taken .endInString [])
  | '"' :: rest => .ok ([], rest)
  | '\\' :: 'u' :: a :: b :: c :: d :: rest =>
    match hexQuad? a b c d with
    | none => .error (quadFault (a :: b :: c :: d :: rest))
    | some n =>
      if isTrailing n then .error (.taken .loneSurrogate rest)
      else if isLeading n then
        match rest with
        | '\\' :: 'u' :: e :: f :: g :: h :: more =>
          match hexQuad? e f g h with
          | some m =>
            if isTrailing m then do
              let (cs, after) ← scanString more
              return (pairChar n m :: cs, after)
            else .error (pairFault rest)
          | none => .error (pairFault rest)
        | _ => .error (pairFault rest)
      else do
        let (cs, after) ← scanString rest
        return (Char.ofNat n :: cs, after)
  | '\\' :: c :: rest =>
    if c = 'u' then .error (quadFault rest)
    else
      match escapedChar? c with
      | none => .error ⟨.invalidEscape, c :: rest, 1⟩
      | some e => do
        let (cs, after) ← scanString rest
        return (e :: cs, after)
  | '\\' :: [] => .error (.taken .endInString [])
  | c :: rest =>
    if c.toNat < 32 then .error (.taken .controlCharacter rest)
    else do
      let (cs, after) ← scanString rest
      return (c :: cs, after)

/-- Passes over a string, from after its opening quote to after its closing one.
An escape need not write a character. -/
def passString : List Char → Except Fault (List Char)
  | [] => .error (.taken .endInString [])
  | '"' :: rest => .ok rest
  | '\\' :: 'u' :: a :: b :: c :: d :: rest =>
    match hexQuad? a b c d with
    | none => .error (quadFault (a :: b :: c :: d :: rest))
    | some _ => passString rest
  | '\\' :: c :: rest =>
    if c = 'u' then .error (quadFault rest)
    else
      match escapedChar? c with
      | none => .error ⟨.invalidEscape, c :: rest, 1⟩
      | some _ => passString rest
  | '\\' :: [] => .error (.taken .endInString [])
  | c :: rest => if c.toNat < 32 then .error (.taken .controlCharacter (c :: rest)) else passString rest

/-! ### Numbers -/

/-- The parts of a number as it is written: the digits before the point and, if
there are any, those after it and those of the exponent with its sign. -/
structure Numeral where
  negative : Bool
  whole : List Nat
  fraction : Option (List Nat)
  exponent : Option (Bool × List Nat)
  deriving DecidableEq, Repr

/-- The value of a decimal digit. -/
def decimalDigit (c : Char) : Nat := c.toNat - 48

/-- The digits at the front of a text, and the rest. -/
def scanDigits (s : List Char) : List Nat × List Char :=
  ((s.takeWhile Char.isDigit).map decimalDigit, s.dropWhile Char.isDigit)

/-- The digits of the exponent, from after the letter that begins it. -/
def scanExponent (atEnd : Cause) (s : List Char) : Except Fault ((Bool × List Nat) × List Char) :=
  let (negative, s) := match s with
    | '+' :: rest => (false, rest)
    | '-' :: rest => (true, rest)
    | _ => (false, s)
  match s with
  | [] => .error (.taken atEnd [])
  | c :: _ =>
    if c.isDigit then .ok ((negative, (scanDigits s).1), (scanDigits s).2)
    else .error ⟨.invalidNumber, s, 1⟩

/-- The exponent, if there is one. -/
def scanExponent? (atEnd : Cause) (s : List Char) : Except Fault ((Option (Bool × List Nat)) × List Char) :=
  match s with
  | c :: rest =>
    if c = 'e' || c = 'E' then do
      let (e, after) ← scanExponent atEnd rest
      return (some e, after)
    else .ok (none, s)
  | [] => .ok (none, s)

/-- The digits after the point, if there is one. -/
def scanFraction? (atEnd : Cause) (s : List Char) : Except Fault ((Option (List Nat)) × List Char) :=
  match s with
  | '.' :: rest =>
    match rest with
    | [] => .error (.taken atEnd [])
    | c :: _ =>
      if c.isDigit then .ok (some (scanDigits rest).1, (scanDigits rest).2)
      else .error ⟨.invalidNumber, rest, 1⟩
  | _ => .ok (none, s)

/-- The digits before the point: a single zero, or digits that begin with no
zero. -/
def scanWhole (atEnd : Cause) (s : List Char) : Except Fault ((List Nat) × List Char) :=
  match s with
  | [] => .error (.taken atEnd [])
  | '0' :: rest =>
    match rest with
    | c :: _ => if c.isDigit then .error ⟨.invalidNumber, rest, 1⟩ else .ok ([0], rest)
    | [] => .ok ([0], rest)
  | c :: _ => if c.isDigit then .ok (scanDigits s) else .error ⟨.invalidNumber, s, 1⟩

/-- A number, from after its sign. A text that ends where a digit must stand has
the fault `atEnd`. -/
def scanNumeral (atEnd : Cause) (negative : Bool) (s : List Char) : Except Fault (Numeral × List Char) := do
  let (whole, s) ← scanWhole atEnd s
  let (fraction, s) ← scanFraction? atEnd s
  let (exponent, s) ← scanExponent? atEnd s
  return (⟨negative, whole, fraction, exponent⟩, s)

/-- Appends digits to a number while it fits a word; the digits left over are
counted. -/
def absorb : Nat → List Nat → Nat × Nat
  | n, [] => (n, 0)
  | n, d :: ds => if 10 * n + d ≤ maxWord then absorb (10 * n + d) ds else (n, ds.length + 1)

/-- The digits of an exponent that can be read: those up to the first at which it
no longer fits 31 bits. -/
def readableExponent : Nat → List Nat → Option Nat
  | n, [] => some n
  | n, d :: ds => if 10 * n + d ≤ 0x7fffffff then readableExponent (10 * n + d) ds else none

/-- The number of digits that follow the one at which an exponent no longer fits
31 bits. -/
def unreadDigits : Nat → List Nat → Nat
  | _, [] => 0
  | n, d :: ds => if 10 * n + d ≤ 0x7fffffff then unreadDigits (10 * n + d) ds else ds.length

/-- The double with a sign. -/
def signed (negative : Bool) (x : Binary64) : Number := .binary (if negative then x.neg else x)

/-- The number that a numeral writes. A numeral without point and exponent is a
whole number if it lies between `-2 ^ 63` and `2 ^ 64 - 1` and is not `-0`. Any
other is a double: of its digits those that fit a word are read, and further
ones before the point only count. The error tells how many digits of the
exponent were not looked at. -/
def Numeral.number (n : Numeral) : Except Nat Number :=
  let (significand, dropped) := absorb 0 n.whole
  match n.fraction, n.exponent, dropped with
  | none, none, 0 =>
    if !n.negative then .ok (.whole significand)
    else if significand = 0 ∨ 0x8000000000000000 < significand then .ok (signed true (.ofNat significand))
    else .ok (.whole (-(significand : Int)))
  | fraction, exponent, dropped =>
    let (significand, used) := match fraction with
      | none => (significand, 0)
      | some ds => ((absorb significand ds).1, ds.length - (absorb significand ds).2)
    let place : Int := (dropped : Int) - used
    let (below, digits) := exponent.getD (false, [])
    match readableExponent 0 digits with
    | none =>
      if significand ≠ 0 ∧ !below then .error (unreadDigits 0 digits)
      else .ok (signed n.negative .zero)
    | some e =>
      match Binary64.ofDecimal significand (if below then place - e else place + e) with
      | some x => .ok (signed n.negative x)
      | none => .error 0

/-- A number that is kept, from its sign or first digit on. -/
def scanNumber (s : List Char) : Except Fault (Number × List Char) := do
  let (numeral, after) ← match s with
    | '-' :: rest => scanNumeral .endInValue true rest
    | _ => scanNumeral .endInValue false s
  match numeral.number with
  | .ok n => return (n, after)
  | .error unread => throw (.taken .numberOutOfRange (s.drop (s.length - after.length - unread)))

/-- Passes over a number, from its sign or first digit on. -/
def passNumber (s : List Char) : Except Fault (List Char) := do
  let (_, after) ← match s with
    | '-' :: rest => scanNumeral .invalidNumber true rest
    | _ => scanNumeral .invalidNumber false s
  return after

end Json
end TaskHost
