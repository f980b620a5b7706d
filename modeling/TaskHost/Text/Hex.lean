/-
# Hexadecimal digits

Numbers and bytes are written in lower-case hexadecimal; digits of either case
are read.

Key definitions: `Hex.digit`, `Hex.value?`, `Hex.fixed`, `Hex.ofNat`,
`Hex.ofBytes`, `Hex.bytes?`.
-/

namespace TaskHost

/-- A sequence of bytes. -/
abbrev Bytes := List UInt8

namespace Hex

/-- The lower-case digit of a number below sixteen. -/
def digit (n : Nat) : Char :=
  if n < 10 then Char.ofNat (48 + n) else Char.ofNat (87 + n)

/-- The value of a digit of either case. -/
def value? (c : Char) : Option Nat :=
  if '0' ≤ c ∧ c ≤ '9' then some (c.toNat - 48)
  else if 'a' ≤ c ∧ c ≤ 'f' then some (c.toNat - 87)
  else if 'A' ≤ c ∧ c ≤ 'F' then some (c.toNat - 55)
  else none

/-- The last `width` digits of a number. -/
def fixed : Nat → Nat → List Char
  | 0, _ => []
  | width + 1, n => fixed width (n / 16) ++ [digit (n % 16)]

/-- A number's digits, without leading zeros. -/
def ofNat (n : Nat) : List Char := Nat.toDigits 16 n

/-- The number that digits write, if all of them are digits. -/
def nat? (digits : List Char) : Option Nat :=
  digits.foldl (fun acc c => do return 16 * (← acc) + (← value? c)) (some 0)

/-- Two digits for each byte. -/
def ofBytes (bytes : Bytes) : List Char := bytes.flatMap fun b => fixed 2 b.toNat

/-- The bytes that pairs of digits write. -/
def bytes? : List Char → Option Bytes
  | [] => some []
  | [_] => none
  | a :: b :: rest => do return (16 * (← value? a) + (← value? b)).toUInt8 :: (← bytes? rest)

end Hex
end TaskHost
