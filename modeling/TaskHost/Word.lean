/-
# Counts of 64 bits

Times, sequence numbers and fault counts are kept in words of 64 bits. Sums of
times saturate at the largest word; a product or a sum that is checked instead
has no result when it does not fit, and `Overflow` says which of the two it was.
A list that is kept in one block of memory can be too long for that, too.

Key definitions: `maxWord`, `maxBytes`, `Overflow`, `mulWord`, `addWord`, `tenPow`.
-/

namespace TaskHost

/-- The largest word of 64 bits. -/
def maxWord : Nat := 0xffffffffffffffff

/-- The most bytes in one block of memory: the largest word with a sign. -/
def maxBytes : Nat := 0x7fffffffffffffff

def tenPow (k : Nat) : Nat := Nat.pow 10 k

/-- A checked operation whose result does not fit a word, or a list that does not
fit a block of memory. -/
inductive Overflow where
  | multiply
  | add
  | capacity
  deriving DecidableEq, Repr

def Overflow.message : Overflow → String
  | .multiply => "attempt to multiply with overflow"
  | .add => "attempt to add with overflow"
  | .capacity => "capacity overflow"

/-- The product of two words, if it fits. -/
def mulWord (a b : Nat) : Except Overflow Nat :=
  if a * b ≤ maxWord then .ok (a * b) else .error .multiply

/-- The sum of two words, if it fits. -/
def addWord (a b : Nat) : Except Overflow Nat :=
  if a + b ≤ maxWord then .ok (a + b) else .error .add

end TaskHost
