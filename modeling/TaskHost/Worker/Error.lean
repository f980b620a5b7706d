/-
# Errors of workers

A registration fails because of the registry or because of the host; a callback
fails by its own word, or because of a host call or a registration; a dispatch
loop fails only because a pull does.

Key definitions: `RegistryError`, `TaskError`, `DispatchError`.
-/
import TaskHost.Host.Error

namespace TaskHost

/-- Why a task cannot be registered. -/
inductive RegistryError where
  | duplicateTask (task : TaskId)
  | taskRunning (task : TaskId)
  | host (error : HostError)
  deriving DecidableEq, Repr

def RegistryError.message : RegistryError → String
  | .duplicateTask task => s!"Task already registered: {task.token}"
  | .taskRunning task => s!"Task is still running: {task.token}"
  | .host error => s!"Host rejected registration: {error.message}"

/-- Why a callback fails. -/
inductive TaskError where
  | failed (text : String)
  | host (error : HostError)
  | registry (error : RegistryError)
  deriving DecidableEq, Repr

def TaskError.message : TaskError → String
  | .failed text => text
  | .host error => s!"Host op failed: {error.message}"
  | .registry error => s!"Registration failed: {error.message}"

/-- Why a dispatch loop stops. -/
inductive DispatchError where
  | host (error : HostError)
  deriving DecidableEq, Repr

def DispatchError.message : DispatchError → String
  | .host error => s!"Host error while pulling tasks: {error.message}"

end TaskHost
