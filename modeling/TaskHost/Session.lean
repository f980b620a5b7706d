/-
# Sessions

A session is a host with any number of workers, dispatch loops and deferred
results on it. It is driven by commands, each of which one worker, one loop or
the host itself carries out and replies to; callbacks of all workers write into
one journal.

Key definitions: `Session`, `Session.Command`, `Session.Reply`, `Session.exec`.
-/
import TaskHost.Worker.Dispatch

namespace TaskHost

/-- A deferred result of the host: its cell and, for a timer, the signal that
fills it. -/
structure Slot where
  cell : Deferred Answer
  signal : Option Signal

namespace Slot

/-- A result that is there at once. -/
def ofCompletion (c : Completion Answer) : Slot := ⟨.complete c, none⟩

/-- The result of a timer. -/
def ofSignal (s : Signal) : Slot := ⟨.pending, some s⟩

/-- The slot as it is by now: the cell of a timer that has an outcome is filled. -/
def refresh (slot : Slot) (h : Host) : Slot :=
  match slot.signal.bind h.completion? with
  | some c => { slot with cell := slot.cell.fill ⟨c.seq, c.result.map fun () => .done⟩ }
  | none => slot

end Slot

/-- A host with the workers, loops and deferred results on it. A loop that was
run to its end is gone; the journal tells which worker did what. -/
structure Session where
  host : Host
  workers : List Worker
  loops : List (Option DispatchLoop)
  slots : List Slot
  journal : List (Nat × Occurrence)

namespace Session

/-- An operation whose deferred result is kept in a slot. -/
inductive Operation where
  | timer (delay : Duration)
  | read (path : String)
  | write (path : String) (contents : Bytes)
  | fetch (url : String)
  deriving DecidableEq, Repr

/-- What a session is asked to do; `worker`, `loop` and `slot` are indices. -/
inductive Command where
  | spawn (descriptor : ContextDescriptor) (threshold : Option LogLevel)
  | adopt (handle : ContextHandle) (threshold : Option LogLevel)
  | register (worker : Nat) (task : TaskId) (body : Body)
  | setTimeout (worker : Nat) (delay : Duration) (body : Body)
  | settle (worker : Nat) (origin : Option TaskId)
  | drain (worker : Nat)
  | console (worker : Nat) (stream : ConsoleStream) (args : List Json)
  | call (worker : Nat) (call : HostCall)
  | entries (worker : Nat)
  | registry (worker : Nat) (task : Option TaskId)
  | queue (worker : Nat)
  | newLoop
  | stepLoop (loop worker : Nat)
  | runLoop (loop worker : Nat)
  | showLoop (loop : Nat)
  | advance (duration : Duration)
  | drive
  | print (line : String) (isError : Bool)
  | timers
  | contexts
  | file (path : String)
  | lines (isError : Bool)
  | start (operation : Operation)
  | slot (slot : Nat)
  | take (slot : Nat)

/-- What a registry shows of itself. -/
structure RegistryView where
  ids : List TaskId
  running : Option TaskId
  contains : Option Bool
  deriving DecidableEq, Repr

/-- What the host shows of a worker's context. -/
structure QueueView where
  ids : List TaskId
  signals : Nat
  name : Option String
  deriving DecidableEq, Repr

/-- What a session replies. -/
inductive Reply where
  | done
  | failed (error : HostError)
  | refused (error : RegistryError)
  | stopped (error : DispatchError)
  | answer (a : Answer)
  | worker (index : Nat) (handle : ContextHandle)
  | index (n : Nat)
  | count (n : Nat)
  | flag (b : Bool)
  | report (r : DrainReport)
  | state (s : LoopState)
  | loop (l : DispatchLoop)
  | gone
  | entries (es : List LogEntry)
  | registry (view : RegistryView)
  | queue (view : QueueView)
  | contents (bytes : Option Bytes)
  | lines (ls : List String)
  | slot (ready : Bool) (seq : Option Nat)
  | pending
  | absent

/-- A session on a host. -/
def ofHost (h : Host) : Session := ⟨h, [], [], [], []⟩

/-- Lets a worker act at its station. -/
def atStation {α : Type} (s : Session) (w : Nat) (act : Station → Station × α) :
    Session × Option α :=
  match s.workers[w]? with
  | none => (s, none)
  | some worker =>
    let (station, a) := act ⟨s.host, worker, []⟩
    ({ s with host := station.host, workers := s.workers.set w station.worker,
              journal := s.journal ++ station.journal.map fun o => (w, o) }, some a)

/-- Lets a worker act and replies; there may be no such worker. -/
def byWorker (s : Session) (w : Nat) (act : Station → Station × Reply) : Session × Reply :=
  match s.atStation w act with
  | (s, some r) => (s, r)
  | (s, none) => (s, .absent)

/-- Adds the worker of a context. -/
def addWorker (s : Session) (handle : ContextHandle) (threshold : Option LogLevel) :
    Session × Reply :=
  let worker := Worker.ofHandle handle
  let worker := match threshold with
    | some level => worker.withLogThreshold level
    | none => worker
  ({ s with workers := s.workers ++ [worker] }, .worker s.workers.length handle)

/-- Keeps a deferred result. -/
def addSlot (s : Session) (slot : Slot) : Session × Reply :=
  ({ s with slots := s.slots ++ [slot] }, .index s.slots.length)

/-- The reply to the end of a drain. -/
def drainReply : Except DispatchError DrainReport → Reply
  | .ok r => .report r
  | .error e => .stopped e

/-- Starts an operation and keeps its result. -/
def begin (s : Session) : Operation → Session × Reply
  | .timer delay =>
    let (h, signal) := s.host.setTimeout delay
    { s with host := h }.addSlot (.ofSignal signal)
  | .read path =>
    let (h, c) := s.host.loadFile path
    { s with host := h }.addSlot (.ofCompletion ⟨c.seq, c.result.map .bytes⟩)
  | .write path contents =>
    let (h, c) := s.host.storeFile path contents
    { s with host := h }.addSlot (.ofCompletion ⟨c.seq, c.result.map fun () => .done⟩)
  | .fetch url =>
    let (h, c) := s.host.fetch url
    { s with host := h }.addSlot (.ofCompletion ⟨c.seq, c.result.map .response⟩)

/-- What a worker's registry shows. -/
def viewRegistry (r : Registry Body) (task : Option TaskId) : RegistryView :=
  ⟨r.ids, r.running, task.map r.contains⟩

/-- What the host shows of a context. -/
def viewQueue (h : Host) (id : ContextId) : QueueView :=
  ⟨h.queuedIds id, h.signalCount id, (h.context? id).map fun c => c.handle.name⟩

/-- Carries out a command. -/
def exec (s : Session) : Command → Session × Reply
  | .spawn d threshold =>
    match s.host.spawn d with
    | (h, .ok handle) => { s with host := h }.addWorker handle threshold
    | (h, .error e) => ({ s with host := h }, .failed e)
  | .adopt handle threshold => s.addWorker handle threshold
  | .register w task body => s.byWorker w fun st =>
    match st.register task body with
    | (st, .ok ()) => (st, .done)
    | (st, .error e) => (st, .refused e)
  | .setTimeout w delay body => s.byWorker w fun st =>
    let (st, id) := st.setTimeout delay body
    (st, .answer (.timer id))
  | .settle w origin => s.byWorker w fun st =>
    let (st, failures) := st.settle origin
    (st, .count failures)
  | .drain w => s.byWorker w fun st =>
    let (st, r) := st.drain
    (st, drainReply r)
  | .console w stream args => s.byWorker w fun st => (st.consoleWrite stream args, .done)
  | .call w c => s.byWorker w fun st =>
    match st.call c with
    | (st, .ok a) => (st, .answer a)
    | (st, .error e) => (st, .failed e)
  | .entries w => s.byWorker w fun st => (st, .entries st.worker.logger.entries)
  | .registry w task => s.byWorker w fun st =>
    (st, .registry (viewRegistry st.worker.registry task))
  | .queue w => s.byWorker w fun st => (st, .queue (viewQueue st.host st.worker.handle.context))
  | .newLoop => ({ s with loops := s.loops ++ [some .start] }, .index s.loops.length)
  | .stepLoop l w =>
    match s.loops[l]? with
    | none => (s, .absent)
    | some none => (s, .gone)
    | some (some loop) =>
      match s.atStation w fun st => let (loop, st, r) := loop.step st; (st, (loop, r)) with
      | (s, none) => (s, .absent)
      | (s, some (loop, r)) =>
        ({ s with loops := s.loops.set l (some loop) },
          match r with
          | .ok () => .state loop.state
          | .error e => .stopped e)
  | .runLoop l w =>
    match s.loops[l]? with
    | none => (s, .absent)
    | some none => (s, .gone)
    | some (some loop) =>
      match s.atStation w loop.run with
      | (s, none) => (s, .absent)
      | (s, some r) => ({ s with loops := s.loops.set l none }, drainReply r)
  | .showLoop l =>
    match s.loops[l]? with
    | none => (s, .absent)
    | some none => (s, .gone)
    | some (some loop) => (s, .loop loop)
  | .advance d => ({ s with host := s.host.advance d }, .done)
  | .drive =>
    let (h, fired) := s.host.drive
    ({ s with host := h }, .flag fired)
  | .print line isError => ({ s with host := s.host.print line isError }, .done)
  | .timers => (s, .count s.host.timers.size)
  | .contexts => (s, .count s.host.contexts.length)
  | .file path => (s, .contents (s.host.files.read path).toOption)
  | .lines isError => (s, .lines (s.host.lines isError))
  | .start op => s.begin op
  | .slot i =>
    match s.slots[i]? with
    | none => (s, .absent)
    | some slot =>
      let cell := (slot.refresh s.host).cell
      (s, .slot cell.isReady cell.seq?)
  | .take i =>
    match s.slots[i]? with
    | none => (s, .absent)
    | some slot =>
      let slot := slot.refresh s.host
      let (r, cell) := slot.cell.tryTake
      ({ s with slots := s.slots.set i { slot with cell := cell } },
        match r with
        | none => .pending
        | some (.ok a) => .answer a
        | some (.error e) => .failed e)

end Session
end TaskHost
