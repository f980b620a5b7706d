/-
# The queue of task ids

A context's queue hands ids out in the order they came in and holds no id twice.

Key definitions: `TaskQueue`, `TaskQueue.push?`, `TaskQueue.pop?`,
`TaskQueue.peek?`.
-/
import TaskHost.Ident

namespace TaskHost

/-- Task ids, the oldest first. -/
structure TaskQueue where
  ids : List TaskId
  deriving DecidableEq, Repr, Inhabited

namespace TaskQueue

def empty : TaskQueue := ⟨[]⟩

def size (q : TaskQueue) : Nat := q.ids.length

def isEmpty (q : TaskQueue) : Bool := q.ids.isEmpty

def contains (q : TaskQueue) (id : TaskId) : Bool := q.ids.contains id

/-- Puts an id at the end; none if it is already queued. -/
def push? (q : TaskQueue) (id : TaskId) : Option TaskQueue :=
  if q.contains id then none else some ⟨q.ids ++ [id]⟩

/-- The oldest id, which stays queued. -/
def peek? (q : TaskQueue) : Option TaskId := q.ids.head?

/-- Takes the oldest id. -/
def pop? (q : TaskQueue) : Option TaskId × TaskQueue :=
  match q.ids with
  | [] => (none, q)
  | id :: rest => (some id, ⟨rest⟩)

end TaskQueue
end TaskHost
