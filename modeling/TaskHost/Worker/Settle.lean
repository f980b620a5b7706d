/-
# Settling timers

A worker settles by running the callbacks of its timers, in the order in which
they become ready, until no timer is waiting; timers that these callbacks set are
settled too. A timer that the host cancelled runs nothing. Each timer that is
cancelled or whose callback fails is logged and counted.

Key definitions: `Station.runTimer`, `Station.runTimers`, `Station.settleRound`,
`Station.settle`.
Key theorems: `Station.potential_runTimers_le`, `Station.potential_settle_le`.
-/
import TaskHost.Worker.Potential

namespace TaskHost

/-- The log entry of a timer that failed, with the task it belongs to if there is
one. -/
def LogEntry.timerFailed (timer : TimerId) (error : TaskError) (origin : Option TaskId) : LogEntry :=
  let e := ((LogEntry.ofMessage .error "timer callback failed").withField "timer" timer.toText).withField
    "error" error.message
  match origin with
  | some task => e.withField "task" task.token
  | none => e

namespace Station

/-- Runs the callback of a timer that fired. -/
def fireTimer (origin : Option TaskId) (s : Station) (t : ReadyTimer Body) :
    Station × Except TaskError Unit :=
  match t.result with
  | .ok () => s.runCallback (.timer t.id) origin t.callback
  | .error e => (s, .error (.host e))

/-- Runs a timer, and logs and counts its failure. -/
def runTimer (origin : Option TaskId) (s : Station) (t : ReadyTimer Body) : Station × Nat :=
  match s.fireTimer origin t with
  | (s, .ok ()) => (s, 0)
  | (s, .error e) => (s.log (.timerFailed t.id e origin), 1)

/-- Runs timers one after the other and counts the failures. -/
def runTimers (origin : Option TaskId) : List (ReadyTimer Body) → Station → Station × Nat
  | [], s => (s, 0)
  | t :: rest, s =>
    let (s, failed) := s.runTimer origin t
    let (s, more) := runTimers origin rest s
    (s, failed + more)

theorem potential_runTimer_le (origin : Option TaskId) (s : Station) (t : ReadyTimer Body) :
    (s.runTimer origin t).1.potential ≤ s.potential + Body.weight t.callback := by
  have fired : (s.fireTimer origin t).1.potential ≤ s.potential + Body.weight t.callback := by
    unfold fireTimer
    split
    · exact potential_runCallback_le s _ _ _
    · exact Nat.le_add_right _ _
  unfold runTimer
  split
  · next k h => rw [h] at fired; exact fired
  · next k e h => rw [h] at fired; simpa [potential_log] using fired

/-- Running timers adds at most their weight, less one for each. -/
theorem potential_runTimers_le (origin : Option TaskId) (ready : List (ReadyTimer Body))
    (s : Station) :
    (runTimers origin ready s).1.potential + ready.length ≤ s.potential + readyWeight ready := by
  induction ready generalizing s with
  | nil => simp [runTimers, readyWeight, bodiesWeight]
  | cons t rest ih =>
    have first := potential_runTimer_le origin s t
    have more := ih (s.runTimer origin t).1
    simp only [runTimers, readyWeight, List.map_cons, bodiesWeight_cons, List.length_cons] at more ⊢
    omega

/-- A round of settling: hands the next timers out and runs them. -/
def settleRound (origin : Option TaskId) (s : Station) : Station × Nat :=
  runTimers origin s.poll.1 s.poll.2

theorem potential_settleRound_le (origin : Option TaskId) (s : Station) :
    (s.settleRound origin).1.potential + s.poll.1.length ≤ s.potential := by
  have := potential_poll s
  have := potential_runTimers_le origin s.poll.1 s.poll.2
  simp only [settleRound]
  omega

/-- Runs the worker's timers, round by round, until none is waiting; gives the
number of failures. -/
def settle (origin : Option TaskId) (s : Station) : Station × Nat :=
  match _hp : s.poll with
  | ([], s') => (s', 0)
  | (t :: rest, s') =>
    let ran := runTimers origin (t :: rest) s'
    let more := settle origin ran.1
    (more.1, ran.2 + more.2)
termination_by s.potential
decreasing_by
  have := potential_settleRound_le origin s
  simp only [settleRound, _hp, List.length_cons] at this
  omega

theorem potential_settle_le (origin : Option TaskId) (s : Station) :
    (s.settle origin).1.potential ≤ s.potential := by
  fun_induction settle origin s with
  | case1 s s' hp =>
    have := potential_poll s
    rw [hp] at this
    simp only at this ⊢
    omega
  | case2 s t rest s' hp ran more ih =>
    have := potential_settleRound_le origin s
    simp only [settleRound, hp] at this
    simp only [more, ran] at ih ⊢
    omega

end Station
end TaskHost
