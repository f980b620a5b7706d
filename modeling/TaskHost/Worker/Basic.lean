/-
# Workers at their stations

A worker has a context, a registry, a bridge with its timers and a log. Its
station is the worker together with the host and the journal of what the worker
does, in the order in which it happens.

Key definitions: `Worker`, `Worker.ofHandle`, `Occurrence`, `Station`,
`Station.register`, `Station.setTimeout`, `Station.log`.
-/
import TaskHost.Worker.Action
import TaskHost.Worker.Registry

namespace TaskHost

/-- A worker. -/
structure Worker where
  handle : ContextHandle
  registry : Registry Body
  bridge : Bridge Body
  logger : Logger

namespace Worker

/-- The worker of a context, whose log prints warnings and errors. -/
def ofHandle (handle : ContextHandle) : Worker :=
  { handle := handle, registry := .empty, bridge := .ofContext handle.context,
    logger := (Logger.ofSource handle.worker).withThreshold .warn }

/-- Gives the worker a new log with another threshold. -/
def withLogThreshold (w : Worker) (threshold : LogLevel) : Worker :=
  { w with logger := (Logger.ofSource w.handle.worker).withThreshold threshold }

def identity (w : Worker) : WorkerIdentity := w.handle.identity

end Worker

/-- What makes a callback run: its task was pulled, or its timer fired. -/
inductive Trigger where
  | task (id : TaskId)
  | timer (id : TimerId)
  deriving DecidableEq, Repr

/-- Something that a worker did: a callback was registered for a task, whose id the
host queued or lost; a pull brought an id or none, a callback began, an action of
a callback was carried out, a callback ended. A callback runs in the scope of a
task or of none; `running` is what the registry then marks as running. -/
inductive Occurrence where
  | registered (task : TaskId) (body : Body) (lost : Bool)
  | pulled (task : Option TaskId)
  | began (trigger : Trigger) (scope running : Option TaskId) (body : Body)
  | acted (scope : Option TaskId) (clock : Instant) (action : Action)
      (result : Except TaskError Answer)
  | ended (trigger : Trigger) (outcome : Except TaskError Unit)

/-- A worker with its host, and the journal of what it has done, the oldest
first. -/
structure Station where
  host : Host
  worker : Worker
  journal : List Occurrence

namespace Station

/-- Writes something into the journal. -/
def note (s : Station) (o : Occurrence) : Station := { s with journal := s.journal ++ [o] }

/-- The context through which the worker calls its host. -/
def context (s : Station) : ContextId := s.worker.bridge.context

/-- The station with another host and registry. -/
def withRegistry (s : Station) (registry : Registry Body) (host : Host) : Station :=
  { s with host := host, worker := { s.worker with registry := registry } }

/-- Registers a callback; the journal tells when this succeeds. -/
def register (s : Station) (task : TaskId) (body : Body) : Station × Except RegistryError Unit :=
  match s.worker.registry.register s.host s.context task body with
  | (registry, host, .ok ()) =>
    ((s.withRegistry registry host).note
      (.registered task body s.host.faults.takeDroppedRegistration.1), .ok ())
  | (registry, host, .error e) => (s.withRegistry registry host, .error e)

def setTimeout (s : Station) (delay : Duration) (body : Body) : Station × TimerId :=
  let (bridge, host, id) := s.worker.bridge.setTimeout s.host delay body
  ({ s with host := host, worker := { s.worker with bridge := bridge } }, id)

def log (s : Station) (e : LogEntry) : Station :=
  let (logger, host) := s.worker.logger.log s.host e
  { s with host := host, worker := { s.worker with logger := logger } }

def consoleWrite (s : Station) (stream : ConsoleStream) (args : List Json) : Station :=
  { s with host := s.host.consoleWrite stream args }

def call (s : Station) (c : HostCall) : Station × Except HostError Answer :=
  let (host, r) := s.worker.bridge.call s.host c
  ({ s with host := host }, r)

def sleep (s : Station) (delay : Duration) : Station × Except HostError Unit :=
  let (host, r) := s.host.sleep delay
  ({ s with host := host }, r)

end Station
end TaskHost
