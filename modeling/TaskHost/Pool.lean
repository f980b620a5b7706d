/-
# Running a workload with several workers

A pool has a host and a configuration. Each of its workers gets a context,
installs the workload and drains it; when all are done the host prints for each,
in the order in which they were started, that it finished or why not. The host
stays the same from one run to the next.

The ids of the workers of a run are given by the caller, who sees to it that they
differ. A run is described for workloads whose ids can be collected (`Pool.run`);
with any other workload all workers panic (`Pool.launch`).

Key definitions: `PoolConfig`, `PoolError`, `Pool.create`,
`Pool.runWorker`, `Pool.run`, `Pool.launch`, `RunReport`.
-/
import TaskHost.Workload

namespace TaskHost

/-- The most workers that a pool has unless it is told otherwise. -/
def maxWorkers : Nat := 4

/-- What a pool is to be. -/
structure PoolConfig where
  workers : Nat
  maxWorkers : Nat
  workload : Workload
  echo : Bool
  diskRoot : Option String
  logLevel : LogLevel
  deriving DecidableEq, Repr

namespace PoolConfig

/-- The configuration with a number of workers and everything else as usual. -/
def ofWorkers (workers : Nat) : PoolConfig :=
  { workers := workers, maxWorkers := TaskHost.maxWorkers, workload := .standard, echo := true,
    diskRoot := none, logLevel := .warn }

/-- The usual configuration, but without echo. -/
def quiet (workers : Nat) : PoolConfig := { ofWorkers workers with echo := false }

end PoolConfig

/-- Why a pool cannot be made, or a worker does not finish. -/
inductive PoolError where
  | invalidWorkerCount (requested max : Nat)
  | host (error : HostError)
  | registry (error : RegistryError)
  | dispatch (error : DispatchError)
  | workerPanicked (worker : WorkerId)
  deriving DecidableEq, Repr

def PoolError.message : PoolError → String
  | .invalidWorkerCount requested max => s!"Invalid worker count {requested} (expected 1..={max})"
  | .host error => s!"Host error: {error.message}"
  | .registry error => s!"Workload registration failed: {error.message}"
  | .dispatch error => s!"Dispatch failed: {error.message}"
  | .workerPanicked worker => s!"Worker {worker.short} panicked"

/-- What a worker that finished has done. -/
structure WorkerSummary where
  worker : WorkerId
  registered : Nat
  report : DrainReport
  deriving DecidableEq, Repr

/-- What became of the workers of a run, each list in the order of their start. -/
structure RunReport where
  finished : List WorkerSummary
  errors : List (WorkerId × PoolError)
  deriving DecidableEq, Repr

namespace RunReport

/-- The number of tasks that ran. -/
def tasksRun (r : RunReport) : Nat := r.finished.foldr (fun w n => w.report.ran + n) 0

/-- A run is a success if every worker finished and no task failed. -/
def isSuccess (r : RunReport) : Bool :=
  r.errors.isEmpty && r.finished.all fun w => w.report.failed.isEmpty

end RunReport

/-- A pool of workers. -/
structure Pool where
  config : PoolConfig
  host : Host

namespace Pool

/-- Makes a pool, if the number of workers is allowed. -/
def create (c : PoolConfig) : Except PoolError Pool :=
  if c.workers = 0 ∨ c.maxWorkers < c.workers then
    .error (.invalidWorkerCount c.workers c.maxWorkers)
  else
    let files := if c.diskRoot.isSome then FileStore.emptyDisk else .empty
    .ok ⟨c, { Host.empty with files := files }⟩

/-- Installs a workload, the ids of which can be collected, at a worker's station and
drains it. -/
def work (w : Workload) (id : WorkerId) (s : Station) :
    Station × Except PoolError WorkerSummary :=
  match w.installCollected s with
  | .error _ => (s, .error (.workerPanicked id))
  | .ok (s, .error e) => (s, .error (.registry e))
  | .ok (s, .ok registered) =>
    match s.drain with
    | (s, .error e) => (s, .error (.dispatch e))
    | (s, .ok report) => (s, .ok ⟨id, registered, report⟩)

/-- Runs the worker with index `i` of a run. -/
def runWorker (c : PoolConfig) (i : Nat) (id : WorkerId) (h : Host) :
    Host × Except PoolError WorkerSummary :=
  match h.spawn ⟨s!"worker-{i}", some id⟩ with
  | (h, .error e) => (h, .error (.host e))
  | (h, .ok handle) =>
    let worker := (Worker.ofHandle handle).withLogThreshold c.logLevel
    let (s, r) := work c.workload id ⟨h, worker, []⟩
    (s.host, r)

/-- Runs a worker that panics when it collects the ids of its workload. -/
def panicWorker (i : Nat) (id : WorkerId) (h : Host) : Host × Except PoolError WorkerSummary :=
  match h.spawn ⟨s!"worker-{i}", some id⟩ with
  | (h, .error e) => (h, .error (.host e))
  | (h, .ok _) => (h, .error (.workerPanicked id))

/-- Runs workers one after the other, the first with index `i`. -/
def runWorkers (worker : Nat → WorkerId → Host → Host × Except PoolError WorkerSummary) :
    Nat → List WorkerId → Host → Host × List (WorkerId × Except PoolError WorkerSummary)
  | _, [], h => (h, [])
  | i, id :: rest, h =>
    let (h, outcome) := worker i id h
    let (h, outcomes) := runWorkers worker (i + 1) rest h
    (h, (id, outcome) :: outcomes)

/-- Prints what became of each worker, and reports it. -/
def conclude : List (WorkerId × Except PoolError WorkerSummary) → Host → Host × RunReport
  | [], h => (h, ⟨[], []⟩)
  | (id, .ok summary) :: rest, h =>
    let (h, r) := conclude rest (h.print s!"worker {id.short} finished\n" false)
    (h, { r with finished := summary :: r.finished })
  | (id, .error e) :: rest, h =>
    let (h, r) := conclude rest (h.print s!"worker error: {e.message}\n" true)
    (h, { r with errors := (id, e) :: r.errors })

/-- Runs a workload, the ids of which can be collected, once, with workers of the
given ids. -/
def run (r : Pool) (ids : List WorkerId) : Pool × RunReport :=
  let (h, outcomes) := runWorkers (runWorker r.config) 0 (ids.take r.config.workers) r.host
  let (h, report) := conclude outcomes h
  ({ r with host := h }, report)

/-- Runs the workload once, with workers of the given ids. -/
def launch (r : Pool) (ids : List WorkerId) : Pool × RunReport :=
  match r.config.workload.collect with
  | .ok _ => r.run ids
  | .error _ =>
    let (h, outcomes) := runWorkers panicWorker 0 (ids.take r.config.workers) r.host
    let (h, report) := conclude outcomes h
    ({ r with host := h }, report)

theorem launch_of_collect {r : Pool} {tasks : List TaskId}
    (collected : r.config.workload.collect = .ok tasks) (ids : List WorkerId) :
    r.launch ids = r.run ids := by
  rw [launch, collected]

end Pool
end TaskHost
