/-
# The host

A host keeps virtual time, contexts with their task queues, pending timers,
files, routes, the lines printed so far and the faults planned for it. Every
operation that completes takes the next sequence number. A timer is given out as
a signal; the host remembers which timers have fired, and with which number, so
that a signal can be looked up at any later time.

Time moves in two ways. `advance` adds a duration and fires what has become due;
`drive` jumps to the earliest deadline, so it fires at least one timer whenever
one is pending.

Key definitions: `Host`, `Signal`, `Host.completion?`, `Host.setTimeout`,
`Host.advance`, `Host.drive`, `Host.await`, `Host.registerTask`, `Host.pull`,
`Host.spawn`.
-/
import TaskHost.Deferred
import TaskHost.Host.Faults
import TaskHost.Host.FileStore
import TaskHost.Host.Routes
import TaskHost.Host.TaskQueue
import TaskHost.Host.TimerQueue

namespace TaskHost

/-- What a context is asked to be: its name and, if it belongs to one, its
worker. -/
structure ContextDescriptor where
  name : String
  worker : Option WorkerId
  deriving DecidableEq, Repr

/-- A context as its owner knows it. -/
structure ContextHandle where
  context : ContextId
  worker : Option WorkerId
  name : String
  deriving DecidableEq, Repr

def ContextHandle.identity (h : ContextHandle) : WorkerIdentity := ⟨h.worker⟩

/-- A context as the host keeps it. -/
structure Context where
  handle : ContextHandle
  queue : TaskQueue
  signals : Nat
  deriving DecidableEq, Repr

/-- A line that was printed, as output or as an error. -/
structure PrintedLine where
  line : String
  isError : Bool
  deriving DecidableEq, Repr

/-- What is given out for a timer: the number under which it was scheduled, or
nothing but its cancellation. -/
inductive Signal where
  | scheduled (order : Nat)
  | cancelled
  deriving DecidableEq, Repr

/-- The state of a host. The context with serial number `i` is the `i`-th of
`contexts`; `fired` holds the number of each timer that has fired with the
sequence number it got. -/
structure Host where
  clock : Instant
  contexts : List Context
  timers : TimerQueue
  fired : List (Nat × Nat)
  files : FileStore
  routes : RouteTable
  output : List PrintedLine
  faults : FaultCounts
  outages : Outages
  completions : Nat

namespace Host

/-- A host at the beginning of time, with nothing in it. -/
def empty : Host :=
  { clock := .start, contexts := [], timers := .empty, fired := [], files := .empty,
    routes := .empty, output := [], faults := .zero, outages := .clear, completions := 0 }

/-! ### The transcript -/

def print (h : Host) (line : String) (isError : Bool) : Host :=
  { h with output := h.output ++ [⟨line, isError⟩] }

/-- The lines printed as output, or as errors. -/
def lines (h : Host) (isError : Bool) : List String :=
  (h.output.filter fun l => l.isError == isError).map PrintedLine.line

/-! ### Preparing a host -/

/-- Puts a file before the host is used; a failure is printed. -/
def withFile (h : Host) (path : String) (contents : Bytes) : Host :=
  match h.files.write path contents with
  | (files, .ok ()) => { h with files := files }
  | (files, .error e) =>
    { h with files := files }.print s!"[host] could not preload {path}: {e.message}\n" true

def withRoute (h : Host) (r : FetchResponse) : Host := { h with routes := h.routes.insert r }

/-! ### Contexts -/

/-- A context that the host made. -/
def context? (h : Host) : ContextId → Option Context
  | .spawned serial => h.contexts[serial]?
  | .foreign _ => none

/-- Changes a context that the host made. -/
def modifyContext (h : Host) (id : ContextId) (f : Context → Context) : Host :=
  match id with
  | .spawned serial => { h with contexts := h.contexts.modify serial f }
  | .foreign _ => h

/-- The ids queued for a context, the oldest first. -/
def queuedIds (h : Host) (id : ContextId) : List TaskId :=
  ((h.context? id).map fun c => c.queue.ids).getD []

/-- The number of ids queued for a context. -/
def queuedCount (h : Host) (id : ContextId) : Nat :=
  ((h.context? id).map fun c => c.queue.size).getD 0

/-- The number of signals that a context has sent. -/
def signalCount (h : Host) (id : ContextId) : Nat :=
  ((h.context? id).map Context.signals).getD 0

/-- Adds a context with an empty queue. -/
def makeContext (h : Host) (d : ContextDescriptor) : Host × Except HostError ContextHandle :=
  let handle : ContextHandle := ⟨.spawned h.contexts.length, d.worker, d.name⟩
  ({ h with contexts := h.contexts ++ [⟨handle, .empty, 0⟩] }, .ok handle)

/-- The host after a spawn has passed the outages. -/
def passSpawn (h : Host) : Host :=
  { h with outages := { h.outages with spawns := h.outages.spawns - 1 } }

/-- Makes a context, unless an outage keeps the call from the host. -/
def spawn (h : Host) (d : ContextDescriptor) : Host × Except HostError ContextHandle :=
  if 0 < h.outages.spawns then (h.passSpawn, .error .cancelled)
  else h.passSpawn.makeContext d

/-- Signals on behalf of a context, which is counted if the host knows it, and
printed in any case. -/
def signal (h : Host) (id : ContextId) : Host :=
  (h.modifyContext id fun c => { c with signals := c.signals + 1 }).print "woof\n" false

/-! ### Task queues -/

/-- The host with other faults to come. -/
def withFaults (h : Host) (faults : FaultCounts) : Host := { h with faults := faults }

/-- Puts an id into the queue of a context, unless it is lost. -/
def enqueue (h : Host) (lost : Bool) (id : ContextId) (task : TaskId) :
    Host × Except HostError Unit :=
  match h.context? id with
  | none => (h, .error (.unknownContext id))
  | some c =>
    if lost then (h, .ok ())
    else
      match c.queue.push? task with
      | none => (h, .error (.duplicateTask task))
      | some queue => (h.modifyContext id fun c => { c with queue := queue }, .ok ())

/-- Queues an id for a context. A planned fault loses the id while the call
succeeds; it is used up whatever becomes of the call. -/
def queueTask (h : Host) (id : ContextId) (task : TaskId) : Host × Except HostError Unit :=
  let (lost, faults) := h.faults.takeDroppedRegistration
  (h.withFaults faults).enqueue lost id task

/-- The host after a registration has passed the outages. -/
def passRegistration (h : Host) : Host :=
  { h with outages := { h.outages with registrations := h.outages.registrations - 1 } }

/-- Queues an id, unless an outage keeps the call from the host. -/
def registerTask (h : Host) (id : ContextId) (task : TaskId) : Host × Except HostError Unit :=
  if 0 < h.outages.registrations then (h.passRegistration, .error .cancelled)
  else h.passRegistration.queueTask id task

/-- Takes the oldest id of a context, or gives it out without taking it. -/
def dequeue (h : Host) (repeated : Bool) (id : ContextId) :
    Host × Except HostError (Option TaskId) :=
  match h.context? id with
  | none => (h, .error (.unknownContext id))
  | some c =>
    if repeated then (h, .ok c.queue.peek?)
    else
      let (task, queue) := c.queue.pop?
      (h.modifyContext id fun c => { c with queue := queue }, .ok task)

/-- Takes the oldest id of a context. A planned fault gives it out without
taking it; it is used up whatever becomes of the call. -/
def unqueueTask (h : Host) (id : ContextId) : Host × Except HostError (Option TaskId) :=
  let (repeated, faults) := h.faults.takeRepeatPull
  (h.withFaults faults).dequeue repeated id

/-- The host after a pull has passed the outages. -/
def passPull (h : Host) : Host :=
  { h with outages := { h.outages with pulls := h.outages.pulls - 1 } }

/-- Takes the oldest id, unless an outage keeps the call from the host. -/
def pull (h : Host) (id : ContextId) : Host × Except HostError (Option TaskId) :=
  if 0 < h.outages.pulls then (h.passPull, .error .cancelled)
  else h.passPull.unqueueTask id

/-! ### Operations that complete at once -/

/-- The completion of an operation, with the next sequence number. -/
def finish {α : Type} (h : Host) (result : Except HostError α) : Host × Completion α :=
  ({ h with completions := h.completions + 1 }, ⟨h.completions, result⟩)

/-- Reads a file; a planned fault fails the read. -/
def loadFile (h : Host) (path : String) : Host × Completion Bytes :=
  let (injected, faults) := h.faults.takeFailingRead
  (h.withFaults faults).finish (if injected then .error (.io path .injected) else h.files.read path)

/-- Writes a file. -/
def storeFile (h : Host) (path : String) (contents : Bytes) : Host × Completion Unit :=
  let (files, result) := h.files.write path contents
  { h with files := files }.finish result

/-- Removes a file, without a sequence number. -/
def removeFile (h : Host) (path : String) : Host × Except HostError Unit :=
  let (files, result) := h.files.remove path
  ({ h with files := files }, result)

/-- Fetches an address; a planned fault fails the fetch. -/
def fetch (h : Host) (url : String) : Host × Completion FetchResponse :=
  let (injected, faults) := h.faults.takeFailingFetch
  (h.withFaults faults).finish
    (if injected then .error (.network url .injected) else h.routes.fetch url)

/-! ### Time -/

/-- Schedules a timer a duration from now. -/
def schedule (h : Host) (delay : Duration) : Host × Signal :=
  ({ h with timers := h.timers.schedule (h.clock.after delay) }, .scheduled h.timers.nextOrder)

/-- The host after a timer has passed the outages. -/
def passTimer (h : Host) : Host :=
  { h with outages := { h.outages with timers := h.outages.timers - 1 } }

/-- Schedules a timer a duration from now, unless an outage cancels it at once. -/
def setTimeout (h : Host) (delay : Duration) : Host × Signal :=
  if 0 < h.outages.timers then (h.passTimer, .cancelled)
  else h.passTimer.schedule delay

/-- Timers that fire, with the sequence numbers from `seq` on. -/
def numberFired (seq : Nat) : List PendingTimer → List (Nat × Nat)
  | [] => []
  | t :: rest => (t.order, seq) :: numberFired (seq + 1) rest

/-- Fires every timer whose deadline has come. -/
def fireDue (h : Host) : Host :=
  let (due, timers) := h.timers.takeDue h.clock
  { h with timers := timers, fired := h.fired ++ numberFired h.completions due,
           completions := h.completions + due.length }

def advance (h : Host) (d : Duration) : Host := { h with clock := h.clock.after d }.fireDue

/-- Jumps to the earliest deadline, if a timer is pending, and fires what is due;
tells whether a timer fired. -/
def drive (h : Host) : Host × Bool :=
  match h.timers.nextDeadline? with
  | none => (h, false)
  | some deadline =>
    let next := { h with clock := h.clock.latest deadline }.fireDue
    (next, next.timers.size < h.timers.size)

/-- The outcome of a timer, once it has one. -/
def completion? (h : Host) : Signal → Option (Completion Unit)
  | .cancelled => some .cancelled
  | .scheduled order => (h.fired.lookup order).map fun seq => ⟨seq, .ok ()⟩

/-- Drives the host, at most `fuel` times, until a timer has an outcome. -/
def awaitWithin : Nat → Host → Signal → Host × Except HostError Unit
  | fuel, h, s =>
    match h.completion? s with
    | some c => (h, c.result)
    | none =>
      match fuel with
      | 0 => (h, .error .cancelled)
      | fuel + 1 =>
        match h.drive with
        | (h, true) => awaitWithin fuel h s
        | (h, false) => (h, .error .cancelled)

/-- Waits for a timer by driving the host. Every drive fires a timer, so no more
drives are needed than timers are pending. -/
def await (h : Host) (s : Signal) : Host × Except HostError Unit := awaitWithin h.timers.size h s

/-- Waits for a duration to pass. -/
def sleep (h : Host) (delay : Duration) : Host × Except HostError Unit :=
  let (h, signal) := h.setTimeout delay
  h.await signal

/-! ### Pulling a queue empty -/

/-- Pulls until no id is left, at most `fuel` times. -/
def pullWithin : Nat → Host → ContextId → Host × Except HostError (List TaskId)
  | 0, h, _ => (h, .ok [])
  | fuel + 1, h, id =>
    match h.pull id with
    | (h, .error e) => (h, .error e)
    | (h, .ok none) => (h, .ok [])
    | (h, .ok (some task)) =>
      match pullWithin fuel h id with
      | (h, .ok tasks) => (h, .ok (task :: tasks))
      | (h, .error e) => (h, .error e)

/-- Pulls until no id is left. Every pull takes an id or uses up a fault. -/
def pullAll (h : Host) (id : ContextId) : Host × Except HostError (List TaskId) :=
  pullWithin (h.queuedCount id + h.faults.repeatPulls + 1) h id

end Host
end TaskHost
