/-
# Draining what is installed, turn by turn

A worker at which tasks were installed drains them while others use the host: between any
two of its turns the host may go on (`Host.Goes`), as long as nobody but the worker calls
on behalf of its context. Where the worker is in its drain is told by its desk, and what
is then installed and waited for by `Workload.Drains`. What others do leaves that as it is
(`Workload.Drains.elsewhere`), and a worker whose desk is not empty can always take a turn,
after which it still drains and is nearer to the end (`Workload.Drains.turn`).

What is left to be done is counted by `Clerk.effort`. A drive of the host may take the
worker back to look at its timer once more, but it fires a timer whenever one is pending;
so the pending timers of the host are counted too.

Key definitions: `Host.Smooth`, `Host.Goes`, `Clerk.effort`, `Workload.Errand`,
`Workload.Drains`.
Key theorems: `Workload.Drains.elsewhere`, `Workload.Drains.turn`.
-/
import Mathlib.Algebra.Ring.Nat
import TaskHost.Proofs.Callers
import TaskHost.Proofs.Floors
import TaskHost.Proofs.Manifests
import TaskHost.Proofs.Registrations

namespace TaskHost

/-! ### What a worker does to its host -/

namespace Host

variable {h k l : Host} {id : ContextId}

/-- No fault is planned, and every call reaches the host. -/
structure Smooth (h : Host) : Prop where
  faults : h.faults = .zero
  outages : h.outages = .clear

/-- A host that goes on, with nothing but operations on behalf of one context between. -/
structure Goes (id : ContextId) (h k : Host) : Prop extends Evolves id h k where
  onward : h.Onward k
  smooth : h.Smooth → k.Smooth

theorem Goes.refl (id : ContextId) (h : Host) : Goes id h h :=
  ⟨.refl id h, .refl h, fun smooth => smooth⟩

theorem Goes.trans (a : Goes id h k) (b : Goes id k l) : Goes id h l :=
  ⟨a.toEvolves.trans b.toEvolves, a.onward.trans b.onward, fun smooth => b.smooth (a.smooth smooth)⟩

theorem goes_print (id : ContextId) (h : Host) (line : String) (isError : Bool) :
    Goes id h (h.print line isError) :=
  ⟨.of_contexts id rfl (later_print h line isError), .of_same rfl rfl rfl,
    fun smooth => ⟨smooth.faults, smooth.outages⟩⟩

theorem goes_setTimeout (id : ContextId) (h : Host) (delay : Duration) :
    Goes id h (h.setTimeout delay).1 := by
  refine ⟨.of_contexts id (contexts_setTimeout h delay) (later_setTimeout h delay),
    onward_setTimeout h delay, fun smooth => ?_⟩
  have passed : h.passTimer.outages = .clear := by
    rw [passTimer, smooth.outages]
    rfl
  unfold setTimeout
  split <;> exact ⟨smooth.faults, passed⟩

theorem size_setTimeout (timers : h.outages.timers = 0) (delay : Duration) :
    (h.setTimeout delay).1.timers.size = h.timers.size + 1 := by
  rw [setTimeout_eq_schedule timers]
  exact List.length_append

theorem goes_drive (id : ContextId) (h : Host) : Goes id h h.drive.1 := by
  refine ⟨.of_contexts id (contexts_drive h) (later_drive h), onward_drive h, fun smooth => ?_⟩
  unfold drive
  split
  · exact smooth
  · exact ⟨smooth.faults, smooth.outages⟩

theorem drive_cases (h : Host) :
    (h.drive.2 = true ∧ h.drive.1.timers.size < h.timers.size) ∨ h.drive = (h, false) := by
  by_cases pending : h.timers.pending = []
  · have idle := TimerQueue.nextDeadline?_eq_none_iff.mpr pending
    refine Or.inr ?_
    unfold drive
    rw [idle]
  · exact Or.inl ⟨(drive_eq_true_iff h).mpr pending, (drive_of_pending pending).2⟩

theorem Smooth.modifyContext (smooth : h.Smooth) (id : ContextId) (f : Context → Context) :
    (h.modifyContext id f).Smooth := by
  cases id <;> exact ⟨smooth.faults, smooth.outages⟩

theorem goes_registerTask (h : Host) (id : ContextId) (task : TaskId) :
    Goes id h (h.registerTask id task).1 := by
  refine ⟨evolves_registerTask h id task, (still_registerTask h id task).onward, fun smooth => ?_⟩
  have asked : h.asked.Smooth := by
    constructor
    · show h.faults.takeDroppedRegistration.2 = .zero
      rw [smooth.faults]
      rfl
    · show { h.outages with registrations := h.outages.registrations - 1 } = Outages.clear
      rw [smooth.outages]
      rfl
  rw [registerTask_eq, if_neg (by rw [smooth.outages]; decide)]
  rcases h.asked.enqueue_cases h.losesNext id task with ⟨e, done⟩ | ⟨-, done⟩ | ⟨-, f, done⟩
  all_goals rw [done]
  · exact asked
  · exact asked
  · exact asked.modifyContext id f

theorem goes_pull (h : Host) (id : ContextId) : Goes id h (h.pull id).1 := by
  refine ⟨evolves_pull h id, (still_pull h id).onward, fun smooth => ?_⟩
  have asked : (h.passPull.withFaults h.faults.takeRepeatPull.2).Smooth := by
    constructor
    · show h.faults.takeRepeatPull.2 = .zero
      rw [smooth.faults]
      rfl
    · show { h.outages with pulls := h.outages.pulls - 1 } = Outages.clear
      rw [smooth.outages]
      rfl
  unfold pull
  rw [if_neg (by rw [smooth.outages]; decide), unqueueTask_eq]
  unfold dequeue
  split
  · exact asked
  · split
    · exact asked
    · exact asked.modifyContext id _

/-- Making a context concerns the context that is made. -/
theorem goes_spawn (h : Host) (d : ContextDescriptor) :
    Goes (.spawned h.contexts.length) h (h.spawn d).1 := by
  have passed : Goes (.spawned h.contexts.length) h h.passSpawn := by
    refine ⟨.of_contexts _ rfl (later_passSpawn h), .of_same rfl rfl rfl,
      fun smooth => ⟨smooth.faults, ?_⟩⟩
    rw [passSpawn, smooth.outages]
    rfl
  have made : Goes (.spawned h.contexts.length) h.passSpawn (h.passSpawn.makeContext d).1 := by
    refine ⟨⟨later_makeContext _ d, fun key other => ?_⟩, .of_same rfl rfl rfl,
      fun smooth => ⟨smooth.faults, smooth.outages⟩⟩
    cases key with
    | foreign u => rfl
    | spawned i =>
      have apart : i ≠ h.contexts.length := fun same => other (by rw [same])
      show (h.contexts ++ [_])[i]? = h.contexts[i]?
      rcases Nat.lt_or_gt_of_ne apart with old | beyond
      · exact List.getElem?_append_left old
      · rw [List.getElem?_eq_none (by simp; omega), List.getElem?_eq_none (by omega)]
  unfold spawn
  split
  · exact passed
  · exact passed.trans made

end Host

namespace Station

theorem host_of_pull (s : Station) : s.pull.1.host = (s.host.pull s.context).1 := by
  unfold pull
  split
  · next h task e => rw [e]; rfl
  · next h error e => rw [e]

theorem host_of_register (s : Station) (task : TaskId) (body : Body) :
    (s.register task body).1.host = s.host
      ∨ (s.register task body).1.host = (s.host.registerTask s.context task).1 := by
  unfold register
  rw [Registry.register_eq]
  cases s.worker.registry.refusal? task with
  | some e => exact Or.inl rfl
  | none =>
    refine Or.inr ?_
    obtain ⟨k, _ | u⟩ := s.host.registerTask s.context task <;> rfl

theorem goes_pull (s : Station) : s.host.Goes s.context s.pull.1.host := by
  rw [host_of_pull]
  exact Host.goes_pull s.host s.context

theorem goes_register (s : Station) (task : TaskId) (body : Body) :
    s.host.Goes s.context (s.register task body).1.host := by
  rcases s.host_of_register task body with same | asked
  · rw [same]
    exact .refl _ _
  · rw [asked]
    exact Host.goes_registerTask s.host s.context task

theorem still_register (s : Station) (task : TaskId) (body : Body) :
    s.host.Still (s.register task body).1.host := by
  rcases s.host_of_register task body with same | asked
  · rw [same]
    exact .refl _
  · rw [asked]
    exact Host.still_registerTask s.host s.context task

theorem goes_log (s : Station) (e : LogEntry) : s.host.Goes s.context (s.log e).host := by
  unfold log Logger.log
  simp only
  split
  · exact Host.goes_print _ _ _ _
  · exact .refl _ _

end Station

/-! ### What is left to be done -/

/-- What is left to be done in a wait. -/
def Stage.effort : Stage → Nat
  | .looking => 3
  | .driving => 2
  | .blocked => 1

/-- What is left to be done when an action has come to its result. -/
def Cause.effort : Cause → Nat
  | .asked => 0
  | .callback _ _ rest => 6 * rest.length + 3

/-- What is left to be done for a chore. -/
def Chore.effort : Chore → Nat
  | .goOn _ _ body => 6 * body.length + 3
  | .await cause _ _ stage => cause.effort + stage.effort
  | .step _ => 0
  | _ => 1

/-- What is left to be done for a loop, besides the tasks that are registered. -/
def LoopState.effort : LoopState → Nat
  | .idle => 4
  | .pullPending => 2
  | .dispatching _ => 1
  | .drained => 0

/-- What is left to be done for the chores of an agenda. -/
def Desk.effort (d : Desk) : Nat :=
  (d.agenda.map Chore.effort).sum + (d.loop?.map fun l => l.state.effort).getD 0

theorem Desk.effort_plan (d : Desk) (chores : List Chore) :
    (d.plan chores).effort = (chores.map Chore.effort).sum + d.effort := by
  simp only [effort, plan, List.map_append, List.sum_append, Nat.add_assoc]
  rfl

/-- What is left to be done at a station: for each registered task as much as for a
callback of two actions, and for each timer the look at it. -/
def Station.effort (s : Station) : Nat := 17 * s.worker.registry.size + 2 * s.host.timers.size

namespace Workload

variable {identity : WorkerIdentity} {delay : Duration} {ids done left rest : List TaskId}
  {task : TaskId} {s t u v : Station} {chores : List Chore}

/-- An action that pauses or prints. -/
def Plain : Action → Prop
  | .pause _ => True
  | .console _ _ => True
  | _ => False

theorem plain_taskBody (identity : WorkerIdentity) (delay : Duration) (task : TaskId) :
    (taskBody identity delay task).length ≤ 2 ∧ ∀ a ∈ taskBody identity delay task, Plain a := by
  unfold taskBody
  split <;> simp [Plain]

/-! ### The callback of a task -/

/-- The wait of a task's callback for the end of a pause, with the rest of the callback. -/
def waiting (task : TaskId) (rest : Body) (delay : Duration) (σ : Signal) (stage : Stage) : Chore :=
  .await (.callback (.task task) (some task) rest) (.pause delay) σ stage

/-- What a worker has yet to do for the task that runs, if its callback pauses and prints: go
on with the callback, wait for a pause to end, settle or report. -/
inductive Errand (h : Host) (task : TaskId) : List Chore → Prop
  | body {rest : Body} (plain : ∀ a ∈ rest, Plain a) :
      Errand h task [.goOn (.task task) (some task) rest]
  | wait {rest : Body} {delay : Duration} {σ : Signal} {stage : Stage}
      (plain : ∀ a ∈ rest, Plain a) (issued : h.Issued σ)
      (fired : stage = .blocked → h.Fired σ) : Errand h task [waiting task rest delay σ stage]
  | settling : Errand h task [.settle (some task) .looking, .finish task (.ok ())]
  | ending : Errand h task [.finish task (.ok ())]

theorem Errand.onward {h k : Host} (errand : Errand h task chores) (onward : h.Onward k) :
    Errand k task chores := by
  cases errand with
  | body plain => exact .body plain
  | wait plain issued fired =>
    exact .wait plain (issued.onward onward) fun blocked => (fired blocked).onward onward
  | settling => exact .settling
  | ending => exact .ending

/-- The effort for some chores at a station. -/
def labour (s : Station) (chores : List Chore) : Nat := (chores.map Chore.effort).sum + s.effort

/-- A turn of an errand: of the worker nothing changes but the journal, and the errand
goes on. -/
structure Furthers (d : Desk) (task : TaskId) (chores : List Chore) (u v : Station)
    (next : List Chore) : Prop where
  turned : (⟨u, d.plan chores⟩ : Shift).turn? = some ⟨v, d.plan next⟩
  errand : Errand v.host task next
  worker : v.worker = u.worker
  contexts : v.host.contexts = u.host.contexts
  goes : u.host.Goes u.context v.host
  closer : labour v next < labour u chores

/-- A wait that is over: the callback goes on. -/
theorem furthers_answered {rest : Body} (delay : Duration) {σ : Signal} (stage : Stage)
    (plain : ∀ a ∈ rest, Plain a) (fired : u.host.Fired σ) (ready : stage ≠ .driving) (d : Desk) :
    ∃ v, Furthers d task [waiting task rest delay σ stage] u v
      [.goOn (.task task) (some task) rest] := by
  obtain ⟨seq, found⟩ := fired
  let v := u.note (.acted (some task) u.host.clock (.pause delay) (.ok .done))
  have turned : (⟨u, d.plan [waiting task rest delay σ stage]⟩ : Shift).turn?
      = some ⟨v, d.plan [.goOn (.task task) (some task) rest]⟩ := by
    cases stage with
    | looking =>
      show Shift.await? ⟨u, _⟩ _ _ σ .looking = _
      rw [Shift.await?, found]
      rfl
    | driving => exact absurd rfl ready
    | blocked =>
      show (u.host.completion? σ).map _ = _
      rw [found]
      rfl
  have less : labour v [.goOn (.task task) (some task) rest]
      < labour u [waiting task rest delay σ stage] := by
    have same : v.effort = u.effort := rfl
    cases stage <;> simp [labour, waiting, Chore.effort, Cause.effort, Stage.effort, same]
  exact ⟨v, turned, .body plain, rfl, rfl, .refl _ _, less⟩

/-- The callback goes on with its next action, or ends. -/
theorem furthers_body {rest : Body} (plain : ∀ a ∈ rest, Plain a)
    (timers : u.host.outages.timers = 0) (d : Desk) :
    ∃ v next, Furthers d task [.goOn (.task task) (some task) rest] u v next := by
  cases rest with
  | nil =>
    refine ⟨u.note (.ended (.task task) (.ok ())), _, rfl, .settling, rfl, rfl, .refl _ _, ?_⟩
    simp [labour, Trigger.after, Chore.effort, Station.effort, Station.note]
  | cons a rest =>
    have others : ∀ b ∈ rest, Plain b := fun b hb => plain b (List.mem_cons_of_mem a hb)
    have first := plain a List.mem_cons_self
    cases a with
    | pause delay =>
      let v : Station := { u with host := (u.host.setTimeout delay).1 }
      have issued := Host.issued_setTimeout timers delay
      have more : v.host.timers.size = u.host.timers.size + 1 := Host.size_setTimeout timers delay
      refine ⟨v, _, rfl, .wait others issued (fun h => by cases h), rfl,
        Host.contexts_setTimeout _ _, Host.goes_setTimeout _ _ _, ?_⟩
      simp [labour, Chore.effort, Cause.effort, Stage.effort, Station.effort, more, v]
      omega
    | console stream args =>
      let w : Station := { u with host := u.host.consoleWrite stream args }
      have same : w.effort = u.effort := rfl
      refine ⟨w.note _, _, rfl, .body others, rfl, rfl, Host.goes_print _ _ _ _, ?_⟩
      show labour w _ < _
      simp [labour, Chore.effort, same]
    | _ => exact first.elim

/-- The wait of the callback goes on. -/
theorem furthers_wait {rest : Body} (plain : ∀ a ∈ rest, Plain a) (delay : Duration) {σ : Signal}
    {stage : Stage} (issued : u.host.Issued σ) (fired : stage = .blocked → u.host.Fired σ)
    (owned : u.host.Owned) (d : Desk) :
    ∃ v next, Furthers d task [waiting task rest delay σ stage] u v next := by
  cases stage with
  | looking =>
    cases found : u.host.completion? σ with
    | none =>
      have turned : (⟨u, d.plan [waiting task rest delay σ .looking]⟩ : Shift).turn?
          = some ⟨u, d.plan [waiting task rest delay σ .driving]⟩ := by
        show Shift.await? ⟨u, _⟩ _ _ σ .looking = _
        rw [Shift.await?, found]
        rfl
      refine ⟨u, _, turned, .wait plain issued (fun h => by cases h), rfl, rfl, .refl _ _, ?_⟩
      simp [labour, waiting, Chore.effort, Stage.effort]
    | some c =>
      obtain ⟨order, given, rfl⟩ := issued
      rcases owned.scheduled given with ⟨-, none⟩ | ⟨-, there⟩
      · rw [none] at found
        cases found
      · obtain ⟨v, furthers⟩ := furthers_answered delay .looking plain there (by decide) d
        exact ⟨v, _, furthers⟩
  | driving =>
    let v : Station := { u with host := u.host.drive.1 }
    have issued' := issued.onward (Host.onward_drive u.host)
    have goes := Host.goes_drive u.context u.host
    refine ⟨v, [waiting task rest delay σ (.driven u.host.drive.2)], rfl,
      .wait plain issued' ?_, rfl, Host.contexts_drive _, goes, ?_⟩
    · intro blocked
      rcases Host.drive_cases u.host with ⟨driven, -⟩ | idle
      · rw [driven] at blocked
        cases blocked
      · exact (issued.fired owned (congrArg Prod.snd idle)).onward (Host.onward_drive u.host)
    · rcases Host.drive_cases u.host with ⟨driven, fewer⟩ | idle
      · simp [labour, waiting, Chore.effort, Stage.effort, Stage.driven, Station.effort, v, driven]
        omega
      · simp [labour, waiting, Chore.effort, Stage.effort, Stage.driven, Station.effort, v, idle]
  | blocked =>
    obtain ⟨v, furthers⟩ := furthers_answered delay .blocked plain (fired rfl) (by decide) d
    exact ⟨v, _, furthers⟩

/-- An errand goes on, until it is to be reported. -/
theorem Errand.furthers (errand : Errand u.host task chores) (owned : u.host.Owned)
    (timers : u.host.outages.timers = 0) (quiet : u.worker.bridge.timers.waiting = []) (d : Desk) :
    chores = [.finish task (.ok ())] ∨ ∃ v next, Furthers d task chores u v next := by
  cases errand with
  | body plain => exact Or.inr (furthers_body plain timers d)
  | wait plain issued fired => exact Or.inr (furthers_wait plain _ issued fired owned d)
  | settling =>
    refine Or.inr ⟨u, [.finish task (.ok ())], ?_, .ending, rfl, rfl, .refl _ _, ?_⟩
    · show (if u.worker.bridge.timers.waiting.isEmpty then _ else _) = _
      rw [quiet]
      rfl
    · simp [labour, Chore.effort]
  | ending => exact Or.inl rfl

/-! ### The drain -/

/-- The desk of a worker that drains: its chores, what its loop does next, and the ids whose
tasks have been executed. -/
def draining (chores : List Chore) (state : LoopState) (done : List TaskId) : Desk :=
  { Desk.withLoop ⟨state, ⟨done, [], []⟩⟩ with agenda := chores }

/-- A worker that drains ids that were installed. Those that it has not pulled yet are still
installed, and those before them are on its report, except one whose task runs. -/
inductive Drains (identity : WorkerIdentity) (delay : Duration) (ids : List TaskId) : Shift → Prop
  | beginning {u : Station} (installed : Installed identity delay ids u) :
      Drains identity delay ids ⟨u, draining [.step true] .idle []⟩
  | settling {u : Station} (installed : Installed identity delay ids u) :
      Drains identity delay ids ⟨u, draining [.settle none .looking, .step true] .pullPending []⟩
  | pulling {u : Station} {done left : List TaskId} (split : ids = done ++ left)
      (installed : Installed identity delay left u) :
      Drains identity delay ids ⟨u, draining [.step true] .pullPending done⟩
  | pulled {u : Station} {done left : List TaskId} {task : TaskId} (split : ids = done ++ task :: left)
      (callback : u.worker.registry.callback? task = some (taskBody identity delay task))
      (installed : Installed identity delay left (u.takeCallback task).2)
      (more : u.worker.registry.size = left.length + 1) :
      Drains identity delay ids ⟨u, draining [.step true] (.dispatching task) done⟩
  | running {u : Station} {done left : List TaskId} {task : TaskId} {chores : List Chore}
      (split : ids = done ++ task :: left) (installed : Installed identity delay left u.finishTask)
      (errand : Errand u.host task chores) :
      Drains identity delay ids ⟨u, (draining [.step true] .pullPending done).plan chores⟩
  | concluding {u : Station} (installed : Installed identity delay [] u) :
      Drains identity delay ids ⟨u, draining [.sumUp] .drained ids⟩
  | finished {u : Station} (installed : Installed identity delay [] u) :
      Drains identity delay ids ⟨u, draining [] .drained ids⟩

/-- What others do leaves installed what is. -/
theorem Installed.elsewhere (hs : Installed identity delay ids u) {k : Host} (later : u.host.Later k)
    (same : k.context? u.context = u.host.context? u.context) :
    Installed identity delay ids { u with host := k } := by
  have queue : ({ u with host := k } : Station).queue = u.queue := by
    show k.queuedIds u.context = u.host.queuedIds u.context
    unfold Host.queuedIds
    rw [same]
  exact hs.change rfl later rfl hs.idle hs.quiet hs.callbacks (queue.trans hs.queue) hs.distinct

/-- A worker goes on to drain whatever others do. -/
theorem Drains.elsewhere {s : Shift} (hs : Drains identity delay ids s) {k : Host}
    (later : s.station.host.Later k) (onward : s.station.host.Onward k)
    (same : k.context? s.station.context = s.station.host.context? s.station.context) :
    Drains identity delay ids ⟨{ s.station with host := k }, s.desk⟩ := by
  cases hs with
  | beginning installed => exact .beginning (installed.elsewhere later same)
  | settling installed => exact .settling (installed.elsewhere later same)
  | pulling split installed => exact .pulling split (installed.elsewhere later same)
  | pulled split callback installed more =>
    exact .pulled split callback (installed.elsewhere later same) more
  | running split installed errand =>
    exact .running split (installed.elsewhere later same) (errand.onward onward)
  | concluding installed => exact .concluding (installed.elsewhere later same)
  | finished installed => exact .finished (installed.elsewhere later same)

theorem Drains.known {s : Shift} (hs : Drains identity delay ids s) :
    (s.station.host.context? s.station.context).isSome := by
  cases hs with
  | beginning installed => exact installed.faultless.known
  | settling installed => exact installed.faultless.known
  | pulling split installed => exact installed.faultless.known
  | pulled split callback installed more => exact installed.faultless.known
  | running split installed errand => exact installed.faultless.known
  | concluding installed => exact installed.faultless.known
  | finished installed => exact installed.faultless.known

end Workload

/-- What is left to be done by a worker at its desk. -/
def Shift.effort (s : Shift) : Nat := s.desk.effort + s.station.effort

/-- A turn that is taken for the worker's own context, and leaves less to be done. -/
structure Shift.Nears (s t : Shift) : Prop where
  turned : s.turn? = some t
  goes : s.station.host.Goes s.station.context t.station.host
  closer : t.effort < s.effort

namespace Workload

variable {identity : WorkerIdentity} {delay : Duration} {ids done left : List TaskId}
  {task : TaskId} {u v : Station}

theorem effort_draining (chores : List Chore) (state : LoopState) (done : List TaskId) :
    (draining chores state done).effort = (chores.map Chore.effort).sum + state.effort := rfl

theorem Installed.size (hs : Installed identity delay ids u) : u.worker.registry.size = ids.length := by
  rw [Registry.size, hs.callbacks, List.length_map]

theorem effort_pull (s : Station) : s.pull.1.effort = s.effort := by
  have still := Host.still_pull s.host s.context
  unfold Station.effort
  rw [View.worker_pull, Station.host_of_pull, still.timers]

theorem effort_log (s : Station) (e : LogEntry) : (s.log e).effort = s.effort := by
  unfold Station.effort Station.log Logger.log
  simp only
  split <;> rfl

/-- The loop pulls the next id, or learns that there is none. -/
theorem Installed.nears_pull (hs : Installed identity delay left u) (split : ids = done ++ left) :
    ∃ t, Shift.Nears ⟨u, draining [.step true] .pullPending done⟩ t ∧ Drains identity delay ids t := by
  have goes := u.goes_pull
  have turn : (⟨u, draining [.step true] .pullPending done⟩ : Shift).turn?
      = some ((⟨u, draining [] .pullPending done⟩ : Shift).beginStep ⟨.pullPending, ⟨done, [], []⟩⟩
        [.step true]) := rfl
  simp only [Shift.beginStep] at turn
  rw [hs.pull.1] at turn
  cases left with
  | nil =>
    have none : Installed identity delay [] u.pull.1 := by
      have keeps := View.keeps_pull u
      refine hs.change keeps.context keeps.host.toLater ?_ ?_ ?_ ?_ hs.pull.2 .nil
      all_goals rw [View.worker_pull]
      · exact hs.idle
      · exact hs.quiet
      · exact hs.callbacks
    obtain rfl : ids = done := split.trans (List.append_nil done)
    refine ⟨_, ⟨turn, goes, ?_⟩, .concluding none⟩
    show (draining [.sumUp] .drained ids).effort + u.pull.1.effort
      < (draining [.step true] .pullPending ids).effort + u.effort
    rw [effort_pull, effort_draining, effort_draining]
    simp [Chore.effort, LoopState.effort]
  | cons task left =>
    obtain ⟨callback, installed⟩ := hs.take
    have more : u.pull.1.worker.registry.size = left.length + 1 := by
      rw [View.worker_pull, hs.size, List.length_cons]
    refine ⟨_, ⟨turn, goes, ?_⟩, .pulled split callback installed more⟩
    show (draining [.step true] (.dispatching task) done).effort + u.pull.1.effort
      < (draining [.step true] .pullPending done).effort + u.effort
    rw [effort_pull, effort_draining, effort_draining]
    simp [Chore.effort, LoopState.effort]

/-- The callback of the id that was pulled begins. -/
theorem Installed.nears_begin (hs : Installed identity delay left (u.takeCallback task).2)
    (split : ids = done ++ task :: left)
    (callback : u.worker.registry.callback? task = some (taskBody identity delay task))
    (more : u.worker.registry.size = left.length + 1) :
    ∃ t, Shift.Nears ⟨u, draining [.step true] (.dispatching task) done⟩ t
      ∧ Drains identity delay ids t := by
  let body := taskBody identity delay task
  let taken := (u.takeCallback task).2
  let begun := (taken.beginTask task).note (.began (.task task) (some task) (some task) body)
  obtain ⟨short, plain⟩ := plain_taskBody identity delay task
  have takes : u.takeCallback task = (some body, taken) := Prod.ext callback rfl
  have turn : (⟨u, draining [.step true] (.dispatching task) done⟩ : Shift).turn?
      = some ((⟨u, draining [] (.dispatching task) done⟩ : Shift).beginStep
        ⟨.dispatching task, ⟨done, [], []⟩⟩ [.step true]) := rfl
  simp only [Shift.beginStep] at turn
  rw [takes] at turn
  have same : begun.finishTask.worker = taken.worker := by
    show { taken.worker with registry := { taken.worker.registry with running := none } } = taken.worker
    rw [← hs.idle]
  have installed : Installed identity delay left begun.finishTask :=
    hs.steady ⟨same, rfl, .refl _⟩
  refine ⟨_, ⟨turn, .refl _ _, ?_⟩, .running split installed (.body plain)⟩
  show ((draining [.step true] .pullPending done).plan [.goOn (.task task) (some task) body]).effort
    + begun.effort < (draining [.step true] (.dispatching task) done).effort + u.effort
  have fewer : begun.worker.registry.size = left.length := hs.size
  have timers : begun.host.timers.size = u.host.timers.size := rfl
  rw [Desk.effort_plan, effort_draining, effort_draining, Station.effort, Station.effort, fewer, more,
    timers]
  simp only [List.map_cons, List.map_nil, List.sum_cons, List.sum_nil, Chore.effort, LoopState.effort]
  have : body.length ≤ 2 := short
  omega

/-- A task that runs goes on, or is reported. -/
theorem Errand.nears (errand : Errand u.host task chores) (owned : u.host.Owned)
    (installed : Installed identity delay left u.finishTask) (split : ids = done ++ task :: left) :
    ∃ t, Shift.Nears ⟨u, (draining [.step true] .pullPending done).plan chores⟩ t
      ∧ Drains identity delay ids t := by
  rcases errand.furthers owned installed.timers installed.quiet
      (draining [.step true] .pullPending done) with rfl | ⟨v, next, furthers⟩
  · have same : u.finishTask.effort = u.effort := rfl
    have reported : ids = (done ++ [task]) ++ left := by rw [split, List.append_assoc]; rfl
    refine ⟨_, ⟨rfl, .refl _ _, ?_⟩, .pulling reported installed⟩
    show (draining [.step true] .pullPending (done ++ [task])).effort + u.finishTask.effort
      < ((draining [.step true] .pullPending done).plan [.finish task (.ok ())]).effort + u.effort
    rw [same, Desk.effort_plan, effort_draining, effort_draining]
    simp [Chore.effort]
  · have finished : v.finishTask.worker = u.finishTask.worker := by
      show { v.worker with registry := v.worker.registry.finish } = _
      rw [furthers.worker]
      rfl
    have steady : Steady u.finishTask v.finishTask :=
      ⟨finished, furthers.contexts, furthers.goes.toLater⟩
    refine ⟨_, ⟨furthers.turned, furthers.goes, ?_⟩,
      .running split (installed.steady steady) furthers.errand⟩
    have less := furthers.closer
    simp only [labour] at less
    simp only [Shift.effort, Desk.effort_plan]
    omega

/-- A worker that drains can take a turn, unless it has come to the end; it then drains still,
and there is less to be done. -/
theorem Drains.turn {s : Shift} (hs : Drains identity delay ids s) (owned : s.station.host.Owned) :
    s.desk = draining [] .drained ids ∨ ∃ t, s.Nears t ∧ Drains identity delay ids t := by
  cases hs with
  | @beginning u installed =>
    refine Or.inr ⟨_, ⟨rfl, .refl _ _, ?_⟩, .settling installed⟩
    show (draining [.settle none .looking, .step true] .pullPending []).effort + u.effort
      < (draining [.step true] .idle []).effort + u.effort
    simp [effort_draining, Chore.effort, LoopState.effort]
  | @settling u installed =>
    have turned : (⟨u, draining [.settle none .looking, .step true] .pullPending []⟩ : Shift).turn?
        = some ⟨u, draining [.step true] .pullPending []⟩ := by
      show (if u.worker.bridge.timers.waiting.isEmpty then _ else _) = _
      rw [installed.quiet]
      rfl
    refine Or.inr ⟨_, ⟨turned, .refl _ _, ?_⟩, .pulling rfl installed⟩
    show (draining [.step true] .pullPending []).effort + u.effort
      < (draining [.settle none .looking, .step true] .pullPending []).effort + u.effort
    simp [effort_draining, Chore.effort]
  | pulling split installed => exact Or.inr (installed.nears_pull split)
  | pulled split callback installed more => exact Or.inr (installed.nears_begin split callback more)
  | running split installed errand => exact Or.inr (errand.nears owned installed split)
  | @concluding u installed =>
    let e : LogEntry := .drainFinished ⟨ids, [], []⟩
    have keeps := Station.keeps_log u e
    have logged : Installed identity delay [] (u.log e) :=
      installed.change keeps.context keeps.host.toLater rfl installed.idle installed.quiet
        installed.callbacks ((Station.queue_log u e).trans installed.queue) .nil
    refine Or.inr ⟨_, ⟨rfl, u.goes_log e, ?_⟩, .finished logged⟩
    show (draining [] .drained ids).effort + (u.log e).effort
      < (draining [.sumUp] .drained ids).effort + u.effort
    rw [effort_log, effort_draining, effort_draining]
    simp [Chore.effort]
  | finished installed => exact Or.inl rfl

end Workload
end TaskHost
