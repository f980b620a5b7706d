/-
# Errors of host calls

A host call fails for one of six reasons. Errors about files and routes carry the
path or address as it was given, and the cause.

Key definitions: `IoCause`, `NetworkCause`, `HostError`, `HostError.message`,
`HostError.ofOs`.
-/
import TaskHost.Host.OsError
import TaskHost.Ident
import TaskHost.Text.Utf8

namespace TaskHost

/-- Why a file cannot be read, written or removed. -/
inductive IoCause where
  | os (error : OsError)
  | nulByte
  | escapesRoot
  | emptyPath
  | injected
  | invalidText (error : Utf8.Invalid)
  | other (text : String)
  deriving DecidableEq, Repr

def IoCause.message : IoCause → String
  | .os error => error.message
  | .nulByte => "file name contained an unexpected NUL byte"
  | .escapesRoot => "path escapes the host root"
  | .emptyPath => "empty path"
  | .injected => "injected read failure"
  | .invalidText error => error.message
  | .other text => text

/-- Why a fetch brings no response. -/
inductive NetworkCause where
  | noRoute
  | injected
  | other (text : String)
  deriving DecidableEq, Repr

def NetworkCause.message : NetworkCause → String
  | .noRoute => "no route to host"
  | .injected => "injected fetch failure"
  | .other text => text

/-- Why a host call fails. -/
inductive HostError where
  | io (path : String) (cause : IoCause)
  | notFound (path : String)
  | network (url : String) (cause : NetworkCause)
  | duplicateTask (task : TaskId)
  | unknownContext (context : ContextId)
  | cancelled
  deriving DecidableEq, Repr

namespace HostError

def message : HostError → String
  | .io path cause => s!"I/O error on {path}: {cause.message}"
  | .notFound path => s!"File not found: {path}"
  | .network url cause => s!"Network error for {url}: {cause.message}"
  | .duplicateTask task => s!"Task already queued: {task.token}"
  | .unknownContext context => s!"Unknown context: {context.toText}"
  | .cancelled => "Operation cancelled before completion"

/-- An operating system's error on a path: a missing file is told apart from all
other causes. -/
def ofOs (path : String) (e : OsError) : HostError :=
  if e = .noEntry then .notFound path else .io path (.os e)

end HostError
end TaskHost
