/-
# Instants and durations

Virtual time is counted in nanoseconds, in words of 64 bits. Adding saturates
at the largest word and subtracting at zero, so both are total; only a duration
given in milliseconds or seconds can be too large to count.

Key definitions: `Instant`, `Duration`, `Instant.after`, `Instant.since`,
`Duration.add`, `Duration.sub`, `Duration.ofMillis`, `Duration.ofBinaryMillis`.
-/
import TaskHost.Binary64

namespace TaskHost

/-- A point of virtual time, in nanoseconds since the host was made. -/
structure Instant where
  nanos : Nat
  nanos_le : nanos ≤ maxWord
  deriving DecidableEq, Repr

/-- A length of virtual time, in nanoseconds. -/
structure Duration where
  nanos : Nat
  nanos_le : nanos ≤ maxWord
  deriving DecidableEq, Repr

namespace Duration

/-- The duration of `n` nanoseconds, at most the largest one. -/
def ofNanos (n : Nat) : Duration := ⟨min n maxWord, Nat.min_le_right n maxWord⟩

def zero : Duration := ofNanos 0

instance : Inhabited Duration := ⟨zero⟩

/-- The duration of `n` milliseconds, if it can be counted in nanoseconds. -/
def ofMillis (n : Nat) : Except Overflow Duration := (mulWord n 1000000).map ofNanos

/-- The duration of `n` seconds, if it can be counted in nanoseconds. -/
def ofSeconds (n : Nat) : Except Overflow Duration := (mulWord n 1000000000).map ofNanos

/-- A double's number of milliseconds: zero unless it is a positive finite
number, and otherwise the product with a million, rounded to a double, cut to a
whole number and to the largest duration. -/
def ofBinaryMillis (x : Binary64) : Duration :=
  match x.parts? with
  | none => zero
  | some p =>
    if p.negative || p.mantissa == 0 then zero
    else
      match (Binary64.mul p (Binary64.ofNat 1000000).partsD).parts? with
      | none => ofNanos maxWord
      | some q => ofNanos (q.mantissa <<< q.exponent.toNat >>> (-q.exponent).toNat)

/-- Whole milliseconds. -/
def millis (d : Duration) : Nat := d.nanos / 1000000

/-- Whole seconds. -/
def seconds (d : Duration) : Nat := d.nanos / 1000000000

/-- The nanoseconds beyond the whole seconds. -/
def subsecond (d : Duration) : Nat := d.nanos % 1000000000

/-- The sum, at most the largest duration. -/
def add (a b : Duration) : Duration := ofNanos (a.nanos + b.nanos)

/-- The difference, at least zero. -/
def sub (a b : Duration) : Duration := ofNanos (a.nanos - b.nanos)

instance : Add Duration := ⟨add⟩

instance : Sub Duration := ⟨sub⟩

end Duration

namespace Instant

/-- The instant `n` nanoseconds after the beginning, at most the last one. -/
def ofNanos (n : Nat) : Instant := ⟨min n maxWord, Nat.min_le_right n maxWord⟩

def start : Instant := ofNanos 0

instance : Inhabited Instant := ⟨start⟩

instance : LE Instant := ⟨fun a b => a.nanos ≤ b.nanos⟩

instance : LT Instant := ⟨fun a b => a.nanos < b.nanos⟩

instance (a b : Instant) : Decidable (a ≤ b) := inferInstanceAs (Decidable (a.nanos ≤ b.nanos))

instance (a b : Instant) : Decidable (a < b) := inferInstanceAs (Decidable (a.nanos < b.nanos))

/-- The instant a duration later, at most the last one. -/
def after (t : Instant) (d : Duration) : Instant := ofNanos (t.nanos + d.nanos)

/-- The time from `earlier` to `t`, zero if `earlier` is not earlier. -/
def since (t earlier : Instant) : Duration := Duration.ofNanos (t.nanos - earlier.nanos)

def latest (a b : Instant) : Instant := if a ≤ b then b else a

def earliest (a b : Instant) : Instant := if a ≤ b then a else b

end Instant
end TaskHost
