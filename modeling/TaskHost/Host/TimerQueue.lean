/-
# Pending timers

Timers are numbered as they are scheduled. Those whose deadline has come are
taken together, in the order of deadlines and, for one deadline, of their
numbers. A place that becomes free is filled with the last timer, so the rest of
the queue need not move; the order inside the queue therefore means nothing.

Key definitions: `TimerQueue`, `TimerQueue.schedule`, `TimerQueue.sweep`,
`TimerQueue.takeDue`, `TimerQueue.nextDeadline?`.
-/
import TaskHost.Ordering
import TaskHost.Time

namespace TaskHost

/-- A timer that has not fired. -/
structure PendingTimer where
  deadline : Instant
  order : Nat
  deriving DecidableEq, Repr

/-- Timers fire in this order. -/
def PendingTimer.key (t : PendingTimer) : Nat × Nat := (t.deadline.nanos, t.order)

/-- The timers that have not fired, and the number of the next one. -/
structure TimerQueue where
  pending : List PendingTimer
  nextOrder : Nat
  deriving DecidableEq, Repr

namespace TimerQueue

def empty : TimerQueue := ⟨[], 0⟩

def size (q : TimerQueue) : Nat := q.pending.length

def isEmpty (q : TimerQueue) : Bool := q.pending.isEmpty

/-- Schedules a timer; its number is the one the queue was at. -/
def schedule (q : TimerQueue) (deadline : Instant) : TimerQueue :=
  ⟨q.pending ++ [⟨deadline, q.nextOrder⟩], q.nextOrder + 1⟩

/-- The earliest deadline. -/
def nextDeadline? (q : TimerQueue) : Option Instant :=
  match q.pending with
  | [] => none
  | t :: rest => some (rest.foldl (fun d u => d.earliest u.deadline) t.deadline)

/-- The list with its last item in front. -/
def lastToFront {α : Type} (l : List α) : List α :=
  match l.getLast? with
  | none => []
  | some a => a :: l.dropLast

theorem length_lastToFront {α : Type} (l : List α) : (lastToFront l).length = l.length := by
  unfold lastToFront
  cases l with
  | nil => rfl
  | cons a l => simp [List.getLast?_cons]

/-- Takes out what is due. The place of a timer taken out is filled with the last
one, which is looked at next. -/
def sweep (due : PendingTimer → Bool) : List PendingTimer → List PendingTimer × List PendingTimer
  | [] => ([], [])
  | t :: rest =>
    if due t then
      let (taken, kept) := sweep due (lastToFront rest)
      (t :: taken, kept)
    else
      let (taken, kept) := sweep due rest
      (taken, t :: kept)
termination_by l => l.length
decreasing_by all_goals simp [length_lastToFront]

/-- Takes the timers whose deadline is not after `now`, in firing order. -/
def takeDue (q : TimerQueue) (now : Instant) : List PendingTimer × TimerQueue :=
  let (taken, kept) := sweep (fun t => t.deadline ≤ now) q.pending
  (sortByKey PendingTimer.key taken, { q with pending := kept })

end TimerQueue
end TaskHost
