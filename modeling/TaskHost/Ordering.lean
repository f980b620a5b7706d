/-
# Sorting by a pair of numbers

Completions and timers are put in the order of two numbers, the first one
deciding.

Key definitions: `keyLe`, `insertByKey`, `sortByKey`.
-/

namespace TaskHost

/-- The order of pairs: by the first number, then by the second. -/
def keyLe (a b : Nat × Nat) : Bool := a.1 < b.1 || (a.1 == b.1 && a.2 ≤ b.2)

/-- Puts an item before the first one with a larger key. -/
def insertByKey {α : Type} (key : α → Nat × Nat) (a : α) : List α → List α
  | [] => [a]
  | b :: rest => if keyLe (key a) (key b) then a :: b :: rest else b :: insertByKey key a rest

/-- The items in the order of their keys; those with equal keys keep theirs. -/
def sortByKey {α : Type} (key : α → Nat × Nat) : List α → List α
  | [] => []
  | a :: rest => insertByKey key a (sortByKey key rest)

end TaskHost
