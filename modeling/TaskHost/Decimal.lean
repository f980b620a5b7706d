/-
# Doubles in the fewest digits

A positive double is written with the fewest decimal digits that read back as
the same double. Every number in an interval around the double rounds to it; for
each count of digits only the two neighbours of the double on the grid of that
count can be the nearest candidate, so the first grid with a neighbour in the
interval gives the digits, the nearer neighbour winning and a tie going to the
even one.

`Format` holds what a notation decides besides the digits: where it stops
writing positions and begins to write an exponent.

Key definitions: `Decimal.Digits`, `Decimal.shortest`, `Decimal.Format`,
`Decimal.Format.render`.
-/
import TaskHost.Binary64

namespace TaskHost
namespace Decimal

/-- The number `coefficient * 10 ^ exponent`. -/
structure Digits where
  coefficient : Nat
  exponent : Int
  deriving DecidableEq, Repr

/-- The reals that round to a double, scaled by a grid: `low`, `value` and
`high` are multiples of `1 / unit` of a grid step, and `closed` says whether the
ends belong. -/
structure Interval where
  low : Nat
  value : Nat
  high : Nat
  unit : Nat
  closed : Bool
  deriving DecidableEq, Repr

/-- Whether `n` grid steps lie in the interval. -/
def Interval.contains (i : Interval) (n : Nat) : Bool :=
  if i.closed then i.low ≤ n * i.unit && n * i.unit ≤ i.high
  else i.low < n * i.unit && n * i.unit < i.high

/-- The neighbour of the value on the grid that lies in the interval: of two the
nearer one, of two equally near the even one. -/
def Interval.nearest? (i : Interval) : Option Nat :=
  let n := i.value / i.unit
  let below := i.value % i.unit
  let above := i.unit - below
  let down := i.contains n
  let up := i.contains (n + 1)
  if down && up then
    if below < above then some n
    else if above < below then some (n + 1)
    else some (n + n % 2)
  else if down then some n
  else if up then some (n + 1)
  else none

/-- The interval of a double `m * 2 ^ e` on the grid of step `10 ^ p`. Below a
power of two doubles lie twice as close, unless it is the smallest one with all
its digits. -/
def interval (m : Nat) (e p : Int) : Interval :=
  let binary := e - 2
  let up := tenPow (-p).toNat <<< binary.toNat
  let down := tenPow p.toNat <<< (-binary).toNat
  let gap := if m = Binary64.hiddenBit ∧ -1074 < e then 1 else 2
  { low := (4 * m - gap) * up, value := 4 * m * up, high := (4 * m + 2) * up, unit := down,
    closed := m % 2 = 0 }

/-- The exponent of the first digit of `m * 2 ^ e`. -/
def leadingExponent (m : Nat) (e : Int) : Int :=
  let scaled := (m * tenPow 350) <<< e.toNat >>> (-e).toNat
  ((Nat.toDigits 10 scaled).length : Int) - 351

/-- The first grid, from `used` digits on, with a neighbour in the interval. -/
def shortestFrom (m : Nat) (e lead : Int) : Nat → Nat → Digits
  | 0, _ => ⟨m, e⟩
  | more + 1, used =>
    let p := lead - used
    match (interval m e p).nearest? with
    | some n => ⟨n, p⟩
    | none => shortestFrom m e lead more (used + 1)

/-- The fewest digits that read back as `m * 2 ^ e`. Seventeen always suffice. -/
def shortest (m : Nat) (e : Int) : Digits := shortestFrom m e (leadingExponent m e) 17 0

/-- Drops the zeros at the end of a positive coefficient. -/
def Digits.trim (d : Digits) : Digits :=
  let cs := Nat.toDigits 10 d.coefficient
  let zeros := (cs.reverse.takeWhile (· == '0')).length
  ⟨d.coefficient / tenPow zeros, d.exponent + zeros⟩

/-- What a notation decides besides the digits: numbers whose first digit stands
for `10 ^ k`, with `firstPositional ≤ k ≤ lastPositional`, are written by
position, and all others with an exponent after `exponentMark`, signed if
positive only when `plusSign` is set. -/
structure Format where
  firstPositional : Int
  lastPositional : Int
  exponentMark : Char
  plusSign : Bool
  deriving Repr

/-- The digits by position; a whole number ends in `.0`. -/
def positional (digits : List Char) (lead : Int) : List Char :=
  if lead < 0 then '0' :: '.' :: (List.replicate (-lead - 1).toNat '0' ++ digits)
  else
    let whole := lead.toNat + 1
    let padded := digits ++ List.replicate (whole - digits.length) '0'
    let fraction := padded.drop whole
    padded.take whole ++ '.' :: (if fraction.isEmpty then ['0'] else fraction)

/-- The digits with an exponent; a point follows the first digit if there are
more. -/
def Format.scientific (f : Format) (digits : List Char) (lead : Int) : List Char :=
  let mantissa := match digits with
    | d :: rest => if rest.isEmpty then [d] else d :: '.' :: rest
    | [] => []
  let sign := if lead < 0 then ['-'] else if f.plusSign then ['+'] else []
  mantissa ++ f.exponentMark :: (sign ++ Nat.toDigits 10 lead.natAbs)

/-- The text of a finite double. -/
def Format.render (f : Format) (p : Binary64.Parts) : List Char :=
  let body :=
    if p.mantissa = 0 then ['0', '.', '0']
    else
      let d := (shortest p.mantissa p.exponent).trim
      let digits := Nat.toDigits 10 d.coefficient
      let lead := d.exponent + digits.length - 1
      if f.firstPositional ≤ lead ∧ lead ≤ f.lastPositional then positional digits lead
      else f.scientific digits lead
  if p.negative then '-' :: body else body

end Decimal
end TaskHost
