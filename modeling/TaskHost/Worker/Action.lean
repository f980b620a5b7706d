/-
# Callbacks as lists of actions

A callback is a finite list of actions, carried out in order until one fails. An
action may register or schedule further callbacks, which are part of it, so a
callback holds everything it can ever bring about; `Action.weight` counts that.

Key definitions: `Action`, `Body`, `Action.weight`, `Body.weight`,
`Action.isAttempt`.
-/
import TaskHost.Bridge
import TaskHost.Console
import TaskHost.Log

namespace TaskHost

/-- What a callback does: a host call, a mark in the journal, a look at the
identity, a registration, a timer, a console line, a log entry, a pause, or a
failure. An attempted action does not end the callback when it fails. -/
inductive Action where
  | call (call : HostCall)
  | mark (note : Json)
  | who
  | register (task : TaskId) (body : List Action)
  | setTimeout (delay : Duration) (body : List Action)
  | console (stream : ConsoleStream) (args : List Json)
  | log (entry : LogEntry)
  | pause (delay : Duration)
  | fail (text : String)
  | attempt (action : Action)

/-- A callback. -/
abbrev Body := List Action

/-- Whether a failure of the action lets the callback go on. -/
def Action.isAttempt : Action → Bool
  | .attempt _ => true
  | _ => false

mutual

/-- The number of ids that an action can queue and of callbacks that it can leave
behind, and those can in turn. -/
def Action.weight : Action → Nat
  | .register _ body => 2 + Body.weight body
  | .setTimeout _ body => 2 + Body.weight body
  | .attempt a => a.weight
  | _ => 1

/-- The weights of the actions together. -/
def Body.weight : List Action → Nat
  | [] => 0
  | a :: rest => a.weight + Body.weight rest

end

end TaskHost
