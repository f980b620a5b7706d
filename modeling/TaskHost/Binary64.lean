/-
# Doubles as exact fractions

A finite double is a sign and a fraction `m * 2 ^ e`. The operations here are
rounded to the nearest double, ties to the even one, and are computed with
whole numbers only: `ofRatio` rounds a fraction, and products and quotients of
doubles are exact fractions rounded once.

Key definitions: `Binary64`, `Binary64.Parts`, `Binary64.parts?`,
`Binary64.ofRatio`, `Binary64.mul`, `Binary64.div`, `Binary64.ofDecimal`.
-/
import TaskHost.Word

namespace TaskHost

/-- A double, by its 64 bits. -/
structure Binary64 where
  bits : UInt64
  deriving DecidableEq, Repr, Inhabited

namespace Binary64

/-- A finite double: `mantissa * 2 ^ exponent`, negated if `negative`. -/
structure Parts where
  negative : Bool
  mantissa : Nat
  exponent : Int
  deriving DecidableEq, Repr

/-- The bit before the 52 stored ones of a fraction. -/
def hiddenBit : Nat := 0x10000000000000

def isNegative (x : Binary64) : Bool := 0x8000000000000000 ≤ x.bits.toNat

/-- The eleven bits of the exponent. -/
def exponentField (x : Binary64) : Nat := x.bits.toNat >>> 52 % 2048

/-- The 52 stored bits of the fraction. -/
def fractionField (x : Binary64) : Nat := x.bits.toNat % hiddenBit

/-- The parts of a finite double; none for an infinity or a NaN. -/
def parts? (x : Binary64) : Option Parts :=
  if x.exponentField = 2047 then none
  else if x.exponentField = 0 then some ⟨x.isNegative, x.fractionField, -1074⟩
  else some ⟨x.isNegative, hiddenBit + x.fractionField, (x.exponentField : Int) - 1075⟩

def neg (x : Binary64) : Binary64 := ⟨x.bits ^^^ 0x8000000000000000⟩

def zero : Binary64 := ⟨0⟩

def infinity : Binary64 := ⟨0x7FF0000000000000⟩

/-- A quotient rounded to the nearest whole number, ties to the even one. -/
def roundDiv (num den : Nat) : Nat :=
  let q := num / den
  let twice := 2 * (num % den)
  if twice < den then q
  else if den < twice then q + 1
  else q + q % 2

/-- Whether `num / den` is at least `2 ^ k`. -/
def atLeastPow (num den : Nat) (k : Int) : Bool :=
  den <<< k.toNat ≤ num <<< (-k).toNat

/-- The exponent of the last place of the double nearest to `num / den`. -/
def placeExponent (num den : Nat) : Int :=
  let k : Int := (Nat.log2 num : Int) - (Nat.log2 den : Int)
  max (if atLeastPow num den k then k - 52 else k - 53) (-1074)

/-- The non-negative double nearest to `num / den`, for `den` positive. The
mantissa is added to the exponent field, so that a mantissa rounded up to the
next power of two carries into the exponent. -/
def ofRatio (num den : Nat) : Binary64 :=
  if num = 0 then zero
  else
    let e := placeExponent num den
    let q := roundDiv (num <<< (-e).toNat) (den <<< e.toNat)
    let b := (e + 1074).toNat * hiddenBit + q
    if infinity.bits.toNat ≤ b then infinity else ⟨b.toUInt64⟩

/-- The non-negative double nearest to a whole number. -/
def ofNat (n : Nat) : Binary64 := ofRatio n 1

/-- The double nearest to `num * 2 ^ e / den`. -/
def ofScaled (negative : Bool) (num den : Nat) (e : Int) : Binary64 :=
  let x := ofRatio (num <<< e.toNat) (den <<< (-e).toNat)
  if negative then x.neg else x

/-- The rounded product of two finite doubles. -/
def mul (x y : Parts) : Binary64 :=
  ofScaled (x.negative ^^ y.negative) (x.mantissa * y.mantissa) 1 (x.exponent + y.exponent)

/-- The rounded quotient of two finite doubles, the second not zero. -/
def div (x y : Parts) : Binary64 :=
  ofScaled (x.negative ^^ y.negative) x.mantissa y.mantissa (x.exponent - y.exponent)

/-- Whether the double is an infinity or a NaN. -/
def isSpecial (x : Binary64) : Bool := x.parts?.isNone

/-- The parts, with zero for an infinity or a NaN. -/
def partsD (x : Binary64) : Parts := x.parts?.getD ⟨false, 0, 0⟩

/-- Divides by `10 ^ k`, in steps of `10 ^ 308` because larger powers are no
doubles. A word divided three times by `10 ^ 308` is zero. -/
def divPowTen : Nat → Binary64 → Nat → Binary64
  | 0, x, _ => x
  | fuel + 1, x, k =>
    if k ≤ 308 then div x.partsD (ofNat (tenPow k)).partsD
    else if x.partsD.mantissa = 0 then x
    else divPowTen fuel (div x.partsD (ofNat (tenPow 308)).partsD) (k - 308)

/-- The double read from a decimal number `significand * 10 ^ exponent`, with
the significand a word: the significand is rounded first and then multiplied or
divided by a power of ten. None if the number is too large. -/
def ofDecimal (significand : Nat) (exponent : Int) : Option Binary64 :=
  let x := ofNat significand
  if 0 ≤ exponent then
    if exponent ≤ 308 then
      let y := mul x.partsD (ofNat (tenPow exponent.toNat)).partsD
      if y.isSpecial then none else some y
    else if significand = 0 then some x else none
  else some (divPowTen 3 x (-exponent).toNat)

end Binary64
end TaskHost
