/-
# The dispatch loop

A dispatch loop first settles the timers that are waiting. Then it pulls an id,
runs the callback of its task and settles the timers of this task, over and over,
until a pull brings no id. An id without a callback is skipped. A pull that fails
stops the loop where it is, so that it can go on later.

Key definitions: `LoopState`, `DrainReport`, `DispatchLoop`, `DispatchLoop.step`,
`DispatchLoop.run`, `Station.drain`.
Key theorems: `DispatchLoop.measure_step_lt`.
-/
import TaskHost.Worker.Settle

namespace TaskHost

/-- What a loop does next: settle, pull, run the task it holds, or nothing any
more. -/
inductive LoopState where
  | idle
  | pullPending
  | dispatching (task : TaskId)
  | drained
  deriving DecidableEq, Repr

/-- What became of the ids that a loop pulled, each list in the order of the
pulls. -/
structure DrainReport where
  executed : List TaskId
  failed : List (TaskId × String)
  skipped : List TaskId
  deriving DecidableEq, Repr

namespace DrainReport

/-- Nothing pulled. -/
def empty : DrainReport := ⟨[], [], []⟩

/-- The number of callbacks that ran. -/
def ran (r : DrainReport) : Nat := r.executed.length + r.failed.length

/-- Whether no id was pulled. -/
def isEmpty (r : DrainReport) : Bool := r.ran == 0 && r.skipped.isEmpty

/-- An id that had no callback. -/
def skip (r : DrainReport) (task : TaskId) : DrainReport :=
  { r with skipped := r.skipped ++ [task] }

/-- A task whose callback ended well. -/
def execute (r : DrainReport) (task : TaskId) : DrainReport :=
  { r with executed := r.executed ++ [task] }

/-- A task whose callback failed. -/
def fail (r : DrainReport) (task : TaskId) (e : TaskError) : DrainReport :=
  { r with failed := r.failed ++ [(task, e.message)] }

end DrainReport

/-- The log entry of a loop that pulled no more. -/
def LogEntry.drainFinished (r : DrainReport) : LogEntry :=
  (((LogEntry.ofMessage .info "drain finished").withField "executed" (toString r.executed.length)).withField
    "failed" (toString r.failed.length)).withField "skipped" (toString r.skipped.length)

/-- The log entry of an id without a callback. -/
def LogEntry.taskSkipped (task : TaskId) : LogEntry :=
  (LogEntry.ofMessage .debug "pulled task has no callback").withField "task" task.token

/-- The log entry of a callback that failed. -/
def LogEntry.taskFailed (task : TaskId) (e : TaskError) : LogEntry :=
  ((LogEntry.ofMessage .error "task failed").withField "task" task.token).withField "error" e.message

namespace Station

/-- Marks a task as running. -/
def beginTask (s : Station) (task : TaskId) : Station :=
  s.withRegistry (s.worker.registry.begin task) s.host

/-- Marks that nothing is running. -/
def finishTask (s : Station) : Station := s.withRegistry s.worker.registry.finish s.host

/-- Pulls an id; the journal tells what a successful pull brings. -/
def pull (s : Station) : Station × Except HostError (Option TaskId) :=
  match s.host.pull s.context with
  | (h, .ok task) => ({ s with host := h }.note (.pulled task), .ok task)
  | (h, .error e) => ({ s with host := h }, .error e)

/-- Runs the callback of a task and settles the timers that belong to it, the task
being marked as running meanwhile. -/
def runTask (s : Station) (task : TaskId) (body : Body) : Station × Except TaskError Unit :=
  let (s, r) := (s.beginTask task).runCallback (.task task) (some task) body
  ((s.settle (some task)).1.finishTask, r)

theorem potential_finishTask (s : Station) : s.finishTask.potential = s.potential := rfl

theorem potential_beginTask (s : Station) (task : TaskId) :
    (s.beginTask task).potential = s.potential := rfl

theorem potential_runTask_le (s : Station) (task : TaskId) (body : Body) :
    (s.runTask task body).1.potential ≤ s.potential + Body.weight body := by
  have ran := potential_runCallback_le (s.beginTask task) (.task task) (some task) body
  have settled := potential_settle_le (some task)
    ((s.beginTask task).runCallback (.task task) (some task) body).1
  rw [potential_beginTask] at ran
  simp only [runTask, potential_finishTask]
  omega

theorem potential_pull (s : Station) :
    s.pull.1.potential + Host.brought s.pull.2 ≤ s.potential := by
  have pulled := Host.pullable_pull s.host s.context
  unfold pull
  cases hp : s.host.pull s.context with
  | mk h r =>
    rw [hp] at pulled
    have same : ({ s with host := h } : Station).potential
        = h.pullable s.context + bodiesWeight s.worker.bodies := rfl
    have whole : s.potential = s.host.pullable s.context + bodiesWeight s.worker.bodies := rfl
    cases r with
    | ok task => simp only [potential_note] at pulled ⊢; omega
    | error e => simp only at pulled ⊢; omega

end Station

/-- A loop: what it does next, and its report so far. -/
structure DispatchLoop where
  state : LoopState
  report : DrainReport
  deriving DecidableEq, Repr

namespace DispatchLoop

/-- A loop that has not begun. -/
def start : DispatchLoop := ⟨.idle, .empty⟩

/-- Runs the callback of a pulled id, or skips the id if it has none. -/
def dispatch (l : DispatchLoop) (s : Station) (task : TaskId) : DispatchLoop × Station :=
  match s.takeCallback task with
  | (none, _) => (⟨.pullPending, l.report.skip task⟩, s.log (.taskSkipped task))
  | (some body, s) =>
    match s.runTask task body with
    | (s, .ok ()) => (⟨.pullPending, l.report.execute task⟩, s)
    | (s, .error e) => (⟨.pullPending, l.report.fail task e⟩, s.log (.taskFailed task e))

/-- One step of a loop. -/
def step (l : DispatchLoop) (s : Station) : DispatchLoop × Station × Except DispatchError Unit :=
  match l.state with
  | .idle => (⟨.pullPending, l.report⟩, (s.settle none).1, .ok ())
  | .pullPending =>
    match s.pull with
    | (s, .error e) => (l, s, .error (.host e))
    | (s, .ok (some task)) => (⟨.dispatching task, l.report⟩, s, .ok ())
    | (s, .ok none) => (⟨.drained, l.report⟩, s.log (.drainFinished l.report), .ok ())
  | .dispatching task =>
    let (l, s) := l.dispatch s task
    (l, s, .ok ())
  | .drained => (l, s, .ok ())

/-- A bound for the steps that a loop has before it. -/
def measure (l : DispatchLoop) (s : Station) : Nat :=
  match l.state with
  | .idle => 2 * s.potential + 2
  | .pullPending => 2 * s.potential + 1
  | .dispatching _ => 2 * s.potential + 2
  | .drained => 0

theorem measure_dispatch_lt (l : DispatchLoop) (s : Station) (task : TaskId) :
    (l.dispatch s task).1.measure (l.dispatch s task).2 < 2 * s.potential + 2 := by
  unfold dispatch
  split
  · simp [measure, Station.potential_log]
  · next body s' h =>
    have taken := Station.potential_takeCallback s task (show (s.takeCallback task).1 = some body by rw [h])
    rw [h] at taken
    have ran := Station.potential_runTask_le s' task body
    split
    · next t ht => rw [ht] at ran; simp only [measure] at taken ran ⊢; omega
    · next t e ht =>
      rw [ht] at ran
      simp only [measure, Station.potential_log] at taken ran ⊢
      omega

/-- A step that succeeds brings a loop that is not drained closer to its end. -/
theorem measure_step_lt (l : DispatchLoop) (s : Station) (hl : l.state ≠ .drained)
    (hs : (l.step s).2.2 = .ok ()) : (l.step s).1.measure (l.step s).2.1 < l.measure s := by
  obtain ⟨state, report⟩ := l
  cases state with
  | idle =>
    have := Station.potential_settle_le none s
    simp only [step, measure]
    omega
  | pullPending =>
    have := Station.potential_pull s
    simp only [step] at hs ⊢
    split at hs
    · simp at hs
    · next t task h =>
      rw [h] at this
      simp only [measure, Host.brought] at this ⊢
      omega
    · simp [measure]
  | dispatching task =>
    have := measure_dispatch_lt ⟨.dispatching task, report⟩ s task
    simpa [step, measure] using this
  | drained => exact absurd rfl hl

/-- Steps until the loop is drained or a pull fails. -/
def run (l : DispatchLoop) (s : Station) : Station × Except DispatchError DrainReport :=
  if _hl : l.state = .drained then (s, .ok l.report)
  else
    match _hs : l.step s with
    | (_, s', .error e) => (s', .error e)
    | (l', s', .ok ()) => run l' s'
termination_by l.measure s
decreasing_by
  have closer := measure_step_lt l s _hl (by rw [_hs])
  rw [_hs] at closer
  exact closer

end DispatchLoop

/-- Runs a new loop to its end. -/
def Station.drain (s : Station) : Station × Except DispatchError DrainReport :=
  DispatchLoop.start.run s

end TaskHost
