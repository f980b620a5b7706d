/-
# The bridge from a context to its host

A bridge carries the calls of one context to the host and keeps the context's own
timers, each with what is to be called back. A timer whose signal has an outcome
is ready; ready timers are handed out together, in the order in which the host
completed them, and each of them once.

Key definitions: `TimerId`, `TimerTable`, `TimerTable.takeReady`, `Bridge`,
`Bridge.setTimeout`, `Bridge.poll`, `HostCall`, `Answer`, `Bridge.call`.
-/
import TaskHost.Host.Basic
import TaskHost.Json.Value

namespace TaskHost

/-- A bridge's timers are numbered as they are set. -/
structure TimerId where
  number : Nat
  deriving DecidableEq, Repr

/-- How a timer is named. -/
def TimerId.toText (t : TimerId) : String := s!"timer:{t.number}"

/-- A timer that has not been handed out: its signal, and what is to be called
back. -/
structure WaitingTimer (σ φ : Type) where
  id : TimerId
  signal : σ
  callback : φ

/-- A timer that is handed out, with its outcome. -/
structure ReadyTimer (φ : Type) where
  id : TimerId
  result : Except HostError Unit
  callback : φ

/-- The timers of a bridge, in the order in which they were set. -/
structure TimerTable (σ φ : Type) where
  waiting : List (WaitingTimer σ φ)
  nextId : Nat

namespace TimerTable

variable {σ φ : Type}

def empty : TimerTable σ φ := ⟨[], 0⟩

def size (t : TimerTable σ φ) : Nat := t.waiting.length

/-- The id that the next timer gets. -/
def next (t : TimerTable σ φ) : TimerId := ⟨t.nextId⟩

/-- Adds a timer under the next id. -/
def insert (t : TimerTable σ φ) (signal : σ) (callback : φ) : TimerTable σ φ :=
  ⟨t.waiting ++ [⟨t.next, signal, callback⟩], t.nextId + 1⟩

/-- The timers that have an outcome, with it. -/
def ready (t : TimerTable σ φ) (outcome : σ → Option (Completion Unit)) :
    List (Nat × ReadyTimer φ) :=
  t.waiting.filterMap fun w =>
    (outcome w.signal).map fun c => (c.seq, ⟨w.id, c.result, w.callback⟩)

/-- Ready timers are handed out by sequence number, and those of one number by
id. -/
def readyKey (r : Nat × ReadyTimer φ) : Nat × Nat := (r.1, r.2.id.number)

/-- Hands out the timers that have an outcome. -/
def takeReady (t : TimerTable σ φ) (outcome : σ → Option (Completion Unit)) :
    List (ReadyTimer φ) × TimerTable σ φ :=
  ((sortByKey readyKey (t.ready outcome)).map Prod.snd,
    { t with waiting := t.waiting.filter fun w => (outcome w.signal).isNone })

end TimerTable

/-- A context's way to its host, with the timers that the context has set. -/
structure Bridge (φ : Type) where
  context : ContextId
  timers : TimerTable Signal φ

/-- A call that a script makes through a bridge. -/
inductive HostCall where
  | read (path : String)
  | readText (path : String)
  | write (path : String) (contents : Bytes)
  | remove (path : String)
  | fetch (url : String)
  | sleep (delay : Duration)
  | push (task : TaskId)
  | pull
  | signal
  | pending
  | now
  deriving DecidableEq, Repr

/-- What a call or an action answers. -/
inductive Answer where
  | done
  | bytes (contents : Bytes)
  | text (s : String)
  | response (r : FetchResponse)
  | task (id : Option TaskId)
  | count (n : Nat)
  | instant (t : Instant)
  | timer (id : TimerId)
  | note (value : Json)
  | identity (identity : WorkerIdentity)

namespace Bridge

variable {φ : Type}

/-- A bridge without timers. -/
def ofContext (context : ContextId) : Bridge φ := ⟨context, .empty⟩

/-- Sets a timer. -/
def setTimeout (b : Bridge φ) (h : Host) (delay : Duration) (callback : φ) :
    Bridge φ × Host × TimerId :=
  let (h, signal) := h.setTimeout delay
  ({ b with timers := b.timers.insert signal callback }, h, b.timers.next)

/-- Hands out the timers that have an outcome by now. -/
def takeReady (b : Bridge φ) (h : Host) : List (ReadyTimer φ) × Bridge φ :=
  let (ready, timers) := b.timers.takeReady h.completion?
  (ready, { b with timers := timers })

/-- Drives the host, at most `fuel` times, until a timer is ready. -/
def pollWithin : Nat → Bridge φ → Host → List (ReadyTimer φ) × Bridge φ × Host
  | fuel, b, h =>
    if b.timers.waiting.isEmpty then ([], b, h)
    else
      match b.takeReady h with
      | (r :: rest, b) => (r :: rest, b, h)
      | ([], b) =>
        match fuel with
        | 0 => ([], b, h)
        | fuel + 1 => pollWithin fuel b h.drive.1

/-- Hands out the next timers, driving the host until one is ready; none only if
no timer is waiting. Every drive fires a timer, so no more drives are needed than
timers are pending. -/
def poll (b : Bridge φ) (h : Host) : List (ReadyTimer φ) × Bridge φ × Host :=
  pollWithin h.timers.size b h

/-- Carries a call to the host. -/
def call (b : Bridge φ) (h : Host) : HostCall → Host × Except HostError Answer
  | .read path =>
    let (h, c) := h.loadFile path
    (h, c.result.map .bytes)
  | .readText path =>
    let (h, c) := h.loadFile path
    (h, do
      match Utf8.decode (← c.result) with
      | .ok s => return .text s
      | .error e => throw (.io path (.invalidText e)))
  | .write path contents =>
    let (h, c) := h.storeFile path contents
    (h, c.result.map fun () => .done)
  | .remove path =>
    let (h, r) := h.removeFile path
    (h, r.map fun () => .done)
  | .fetch url =>
    let (h, c) := h.fetch url
    (h, c.result.map .response)
  | .sleep delay =>
    let (h, r) := h.sleep delay
    (h, r.map fun () => .done)
  | .push task =>
    let (h, r) := h.registerTask b.context task
    (h, r.map fun () => .done)
  | .pull =>
    let (h, r) := h.pull b.context
    (h, r.map .task)
  | .signal => (h.signal b.context, .ok .done)
  | .pending => (h, .ok (.count b.timers.size))
  | .now => (h, .ok (.instant h.clock))

end Bridge
end TaskHost
