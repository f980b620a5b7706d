/-
# Logs of entering and leaving

A trace log lists when named tasks were entered and left. It is sequential if the
tasks ran one after the other: each was left before the next one was entered, and
time never went back.

Key definitions: `TraceEvent`, `TraceLog.entered`, `TraceLog.isSequential`.
-/
import TaskHost.Time

namespace TaskHost

/-- A task was entered or left. -/
inductive TraceEvent where
  | enter (name : String) (clock : Instant)
  | exit (name : String) (clock : Instant)
  deriving DecidableEq, Repr

/-- Events, the oldest first. -/
abbrev TraceLog := List TraceEvent

namespace TraceLog

/-- The names of the tasks that were entered. -/
def entered (log : TraceLog) : List String :=
  log.filterMap fun
    | .enter name _ => some name
    | .exit _ _ => none

/-- What a checker knows of the events so far: the task that is open, with the
time at which it was entered, or the time at which the last one was left. -/
inductive Progress where
  | inside (name : String) (since : Instant)
  | outside (lastExit : Option Instant)
  deriving DecidableEq, Repr

/-- The progress after an event; none if the event is out of order. -/
def Progress.next? : Progress → TraceEvent → Option Progress
  | .outside lastExit, .enter name clock =>
    if lastExit.any fun t => clock < t then none else some (.inside name clock)
  | .inside name since, .exit left clock =>
    if name = left ∧ since ≤ clock then some (.outside (some clock)) else none
  | _, _ => none

/-- Follows events in order. -/
def follow (p : Progress) (log : TraceLog) : Option Progress := log.foldlM Progress.next? p

/-- Whether the events are in order and no task is left open. -/
def isSequential (log : TraceLog) : Bool :=
  match follow (.outside none) log with
  | some (.outside _) => true
  | _ => false

end TraceLog
end TaskHost
