/-
# Manifests that are accepted

Installing a workload registers its ids one after the other, so it ends at the first id
that is there already, and otherwise registers all of them (`Workload.registerAll_cases`);
no id is there already exactly if no family with members is named twice. The callbacks
pause and print, which a host without outages lets succeed, and they leave no timers
behind; so a drain executes exactly the ids that were installed
(`Workload.Installed.drain`). All of this supposes that the ids can be collected: the room
for them, which is at most twice their number unless there are few (`Workload.room_le`),
must fit a block of memory (`Workload.collect_eq_ok_iff`).

Key definitions: `Workload.Installed`.
Key theorems: `Workload.room_le`, `Workload.collect_eq_ok_iff`, `Workload.registerAll_cases`,
`Workload.Installed.drain`, `Workload.accepted_manifest_runs`.
-/
import TaskHost.Proofs.Executions
import TaskHost.Proofs.Fifo
import TaskHost.Proofs.Runs
import TaskHost.Proofs.Sessions
import TaskHost.Proofs.TaskIds
import TaskHost.Proofs.Waits

namespace TaskHost

/-! ### The delay and the room for the ids -/

theorem Duration.ofMillis_eq_ok {n : Nat} (countable : n * 1000000 ≤ maxWord) :
    Duration.ofMillis n = .ok (.ofNanos (n * 1000000)) := by
  unfold ofMillis mulWord
  rw [if_pos countable]
  rfl

namespace Workload

variable {w : Workload} {count room : Nat}

theorem doubled_of_le (fits : count ≤ room) : doubled count room = room := by
  rw [doubled, if_pos (Or.inr fits)]

theorem le_doubled (count : Nat) (some : 0 < room) : count ≤ doubled count room := by
  fun_induction doubled count room with
  | case1 room enough => exact enough.resolve_left (Nat.ne_of_gt some)
  | case2 room short ih => exact ih (by omega)

/-- Room is doubled only as long as it is less than what it is to hold. -/
theorem doubled_le (count room : Nat) : doubled count room ≤ max room (2 * count) := by
  fun_induction doubled count room with
  | case1 room enough => exact Nat.le_max_left room (2 * count)
  | case2 room short ih => exact ih.trans (by omega)

theorem room_eq (w : Workload) : w.room = if w.taskIds.length = 0 then 0
    else doubled w.taskIds.length (max 4 w.subTasks) := by
  rw [length_taskIds]
  rfl

theorem length_le_room (w : Workload) : w.taskIds.length ≤ w.room := by
  rw [room_eq]
  split
  · next none => exact Nat.le_of_eq none
  · exact le_doubled _ (by omega)

/-- The room is at most twice the number of ids, or for four of them. -/
theorem room_le (w : Workload) : w.room ≤ max 4 (2 * w.taskIds.length) := by
  rw [room_eq]
  split
  · exact Nat.zero_le _
  · next some =>
    have family : w.subTasks ≤ w.taskIds.length := by
      rw [length_taskIds] at some ⊢
      exact Nat.le_mul_of_pos_left w.subTasks (Nat.pos_of_mul_pos_right (Nat.pos_of_ne_zero some))
    have bound := doubled_le w.taskIds.length (max 4 w.subTasks)
    omega

/-- A block of memory has room for any ids of which it could hold twice as many. -/
theorem roomy_of_few (few : max 4 (2 * w.taskIds.length) * idBytes ≤ maxBytes) :
    w.room * idBytes ≤ maxBytes :=
  calc w.room * idBytes ≤ max 4 (2 * w.taskIds.length) * idBytes :=
        Nat.mul_le_mul_right idBytes w.room_le
    _ ≤ maxBytes := few

/-- Ids are collected exactly if the room for them fits a block of memory. -/
theorem collect_eq_ok_iff {ids : List TaskId} :
    w.collect = .ok ids ↔ w.room * idBytes ≤ maxBytes ∧ ids = w.taskIds := by
  unfold collect
  split
  · next roomy => exact ⟨fun h => ⟨roomy, (Except.ok.inj h).symm⟩, fun h => by rw [h.2]⟩
  · next crowded => exact ⟨fun h => (by cases h), fun h => absurd h.1 crowded⟩

theorem length_le_maxWord (roomy : w.room * idBytes ≤ maxBytes) : w.taskIds.length ≤ maxWord := by
  have fits := w.length_le_room
  simp only [idBytes, maxBytes] at roomy
  simp only [maxWord]
  omega

end Workload

/-! ### What is installed -/

namespace Workload

variable {w : Workload} {identity : WorkerIdentity} {delay : Duration} {ids rest : List TaskId}
  {task : TaskId} {s t : Station}

/-- A worker at which some ids, and nothing else, have been installed, on a host without
faults. -/
structure Installed (identity : WorkerIdentity) (delay : Duration) (ids : List TaskId)
    (s : Station) : Prop where
  faultless : s.host.Faultless s.context
  pulls : s.host.outages.pulls = 0
  timers : s.host.outages.timers = 0
  who : s.worker.identity = identity
  idle : s.worker.registry.running = none
  quiet : s.worker.bridge.timers.waiting = []
  callbacks : s.worker.registry.callbacks
    = ids.map fun task => (task, taskBody identity delay task)
  queue : s.queue = ids
  distinct : ids.Nodup

theorem Installed.tasks (hs : Installed identity delay ids s) : s.worker.registry.tasks = ids := by
  rw [Registry.tasks, hs.callbacks, List.map_map]
  exact List.map_id ids

/-- What is installed after a change that brings no faults. -/
theorem Installed.change (hs : Installed identity delay ids s) (context : t.context = s.context)
    (later : s.host.Later t.host) (who : t.worker.identity = s.worker.identity)
    (idle : t.worker.registry.running = none) (quiet : t.worker.bridge.timers.waiting = [])
    (callbacks : t.worker.registry.callbacks
      = rest.map fun task => (task, taskBody identity delay task))
    (queue : t.queue = rest) (distinct : rest.Nodup) : Installed identity delay rest t where
  faultless := by
    rw [context]
    exact hs.faultless.later later
  pulls := Nat.le_zero.mp (hs.pulls ▸ later.refusedPulls)
  timers := Nat.le_zero.mp (hs.timers ▸ later.refusedTimers)
  who := who.trans hs.who
  idle := idle
  quiet := quiet
  callbacks := callbacks
  queue := queue
  distinct := distinct

/-- Registering an id that is not there yet. -/
theorem Installed.register_fresh (hs : Installed identity delay ids s) (fresh : task ∉ ids) :
    ∃ t, s.register task (taskBody identity delay task) = (t, .ok ())
      ∧ Installed identity delay (ids ++ [task]) t
      ∧ dispatched t.journal = dispatched s.journal := by
  have absent : task ∉ s.worker.registry.tasks := hs.tasks.symm ▸ fresh
  have accepts : s.worker.registry.refusal? task = none := by
    refine Registry.refusal?_eq_none_iff.mpr ⟨absent, ?_⟩
    rw [hs.idle]
    exact fun h => by cases h
  have queues := Host.registerTask_eq_ok hs.faultless.known hs.faultless.registrations
    (hs.queue.symm ▸ fresh : task ∉ s.queue)
  cases registered : s.host.registerTask s.context task with
  | mk h r =>
    rw [registered] at queues
    obtain rfl : r = .ok () := queues
    let body := taskBody identity delay task
    let t := (s.withRegistry (s.worker.registry.add task body) h).note
      (.registered task body s.host.losesNext)
    have done : s.register task body = (t, .ok ()) := by
      unfold Station.register
      rw [Registry.register_eq, accepts]
      simp only [registered]
      rfl
    have keeps : s.Keeps t :=
      Station.keeps_effect (.registered task body h accepts registered (Body.obeys_any body))
    have callbacks : t.worker.registry.callbacks
        = (ids ++ [task]).map fun task => (task, taskBody identity delay task) := by
      show s.worker.registry.callbacks ++ [(task, body)] = _
      rw [hs.callbacks, List.map_append]
      rfl
    have queue : t.queue = ids ++ [task] := by
      rw [(Station.queue_registered hs.faultless registered).2, hs.queue]
    have distinct := Station.nodup_concat hs.distinct fresh
    have silent : dispatched t.journal = dispatched s.journal :=
      (dispatched_concat s.journal _).trans (List.append_nil _)
    have installed : Installed identity delay (ids ++ [task]) t :=
      hs.change keeps.context keeps.host.toLater rfl hs.idle hs.quiet callbacks queue distinct
    exact ⟨t, done, installed, silent⟩

theorem Installed.register_again (hs : Installed identity delay ids s) (again : task ∈ ids)
    (body : Body) : s.register task body = (s, .error (.duplicateTask task)) := by
  have there : s.worker.registry.contains task = true :=
    Registry.isSome_callback?_iff.mpr (hs.tasks.symm ▸ again)
  have refuses : s.worker.registry.refusal? task = some (.duplicateTask task) := by
    rw [Registry.refusal?, if_pos there]
  unfold Station.register
  rw [Registry.register_eq, refuses]
  rfl

/-- Registering ids one after the other: all of them become registered, or those before
the first that is there already. -/
theorem registerAll_cases (hs : Installed identity delay ids s) (rest : List TaskId) :
    (∃ t, registerAll delay rest s = (t, .ok ()) ∧ Installed identity delay (ids ++ rest) t
      ∧ dispatched t.journal = dispatched s.journal)
    ∨ ∃ before task after t, rest = before ++ task :: after ∧ task ∈ ids ++ before
      ∧ registerAll delay rest s = (t, .error (.duplicateTask task))
      ∧ Installed identity delay (ids ++ before) t := by
  induction rest generalizing ids s with
  | nil => exact Or.inl ⟨s, rfl, by rw [List.append_nil]; exact hs, rfl⟩
  | cons task rest ih =>
    unfold registerAll
    rw [hs.who]
    by_cases again : task ∈ ids
    · rw [hs.register_again again]
      refine Or.inr ⟨[], task, rest, s, rfl, List.mem_append_left _ again, rfl, ?_⟩
      rw [List.append_nil]
      exact hs
    · obtain ⟨t, registered, installed, same⟩ := hs.register_fresh again
      have shift : ∀ others, ids ++ task :: others = ids ++ [task] ++ others :=
        fun others => by simp
      rw [registered, shift]
      rcases ih installed with ⟨u, all, whole, same'⟩
        | ⟨before, twice, after, u, rfl, there, stopped, part⟩
      · exact Or.inl ⟨u, all, whole, same'.trans same⟩
      · refine Or.inr ⟨task :: before, twice, after, u, rfl, ?_, stopped, ?_⟩
        · rw [shift]
          exact there
        · rw [shift]
          exact part

/-! ### What the callbacks do -/

/-- A stretch in which a worker only waits and prints. -/
structure Steady (s t : Station) : Prop where
  worker : t.worker = s.worker
  contexts : t.host.contexts = s.host.contexts
  later : s.host.Later t.host

theorem Steady.trans {u : Station} (a : Steady s t) (b : Steady t u) : Steady s u :=
  ⟨b.worker.trans a.worker, b.contexts.trans a.contexts, a.later.trans b.later⟩

/-- Waiting and printing leave installed what is. -/
theorem Installed.steady (hs : Installed identity delay ids s) (h : Steady s t) :
    Installed identity delay ids t := by
  have context : t.context = s.context := by
    rw [Station.context, h.worker]
    rfl
  have queue : t.queue = ids := (Station.queue_congr h.contexts context).trans hs.queue
  refine hs.change context h.later ?_ ?_ ?_ ?_ queue hs.distinct
  · rw [h.worker]
  · rw [h.worker]
    exact hs.idle
  · rw [h.worker]
    exact hs.quiet
  · rw [h.worker]
    exact hs.callbacks

/-- The callback of a task ends well; it waits and prints. -/
theorem steady_taskBody (timers : s.host.outages.timers = 0) (scope : Option TaskId)
    (identity : WorkerIdentity) (delay : Duration) (task : TaskId) :
    ∃ t, s.runBody scope (taskBody identity delay task) = (t, .ok ()) ∧ Steady s t := by
  let line : Action := .console .out [.string (taskLine identity task)]
  have prints : ∀ u : Station, ∃ t, u.runBody scope [line] = (t, .ok ()) ∧ Steady u t :=
    fun u => ⟨_, rfl, rfl, rfl, Host.later_print _ _ _⟩
  unfold taskBody
  by_cases zero : delay = .zero
  · rw [if_pos zero]
    exact prints s
  · rw [if_neg zero]
    have slept : s.sleep delay = ((s.sleep delay).1, .ok ()) :=
      Prod.ext rfl (Host.sleep_eq_ok timers delay)
    have pauses : ∃ u, s.perform scope (.pause delay) = (u, .ok .done) ∧ Steady s u := by
      unfold Station.perform Station.act
      rw [slept]
      exact ⟨_, rfl, rfl, Host.contexts_sleep s.host delay, Host.later_sleep s.host delay⟩
    obtain ⟨u, paused, steady⟩ := pauses
    obtain ⟨t, printed, steady'⟩ := prints u
    refine ⟨t, ?_, steady.trans steady'⟩
    rw [Station.runBody, paused]
    exact printed

/-- The task of an id that was taken runs to its end; there is nothing to settle. -/
theorem Installed.runTask_eq (hs : Installed identity delay ids s) (task : TaskId) :
    let body := taskBody identity delay task
    let first := (s.beginTask task).note (.began (.task task) (some task) (some task) body)
    s.runTask task body
      = (((first.runBody (some task) body).1.note (.ended (.task task) (.ok ()))).finishTask, .ok ()) := by
  intro body first
  obtain ⟨u, ran, steady⟩ :=
    steady_taskBody (s := first) hs.timers (some task) identity delay task
  let last := u.note (.ended (.task task) (.ok ()))
  have called : (s.beginTask task).runCallback (.task task) (some task) body = (last, .ok ()) :=
    congrArg (fun p => (p.1.note (.ended (.task task) p.2), p.2)) ran
  have quiet : last.worker.bridge.timers.waiting = [] := by
    show u.worker.bridge.timers.waiting = []
    rw [steady.worker]
    exact hs.quiet
  rw [ran]
  unfold Station.runTask
  simp only [called, Station.settle_quiet quiet]
  rfl

/-- The task of the first id runs and ends well; the others stay installed. -/
theorem Installed.runTask (hs : Installed identity delay ids s) (task : TaskId) :
    ∃ t, s.runTask task (taskBody identity delay task) = (t, .ok ())
      ∧ Installed identity delay ids t
      ∧ dispatched t.journal = dispatched s.journal ++ [(task, taskBody identity delay task)] := by
  let body := taskBody identity delay task
  let first := (s.beginTask task).note (.began (.task task) (some task) (some task) body)
  obtain ⟨u, ran, steady⟩ :=
    steady_taskBody (s := first) hs.timers (some task) identity delay task
  let last := u.note (.ended (.task task) (.ok ()))
  have whole : s.runTask task body = (last.finishTask, .ok ()) := by
    have runs : s.runTask task body
        = (((first.runBody (some task) body).1.note (.ended (.task task) (.ok ()))).finishTask, .ok ()) :=
      hs.runTask_eq task
    rw [runs, ran]
  have worker : last.finishTask.worker = s.worker := by
    have finished : last.finishTask.worker
        = { s.worker with registry := { s.worker.registry with running := none } } := by
      show { u.worker with registry := u.worker.registry.finish } = _
      rw [steady.worker]
      rfl
    rw [finished, ← hs.idle]
  have installed : Installed identity delay ids last.finishTask :=
    hs.steady ⟨worker, steady.contexts, steady.later⟩
  have silent : dispatched u.journal = dispatched first.journal := by
    have deeds := Station.deeds_runBody (some task) (Body.obeys_any body) first
    rw [ran] at deeds
    exact (Station.silent_deeds deeds).1
  refine ⟨last.finishTask, whole, installed, ?_⟩
  refine (dispatched_concat u.journal _).trans ((List.append_nil _).trans ?_)
  rw [silent]
  exact dispatched_concat s.journal _

theorem Installed.pull (hs : Installed identity delay ids s) :
    s.pull = (s.pull.1, .ok ids.head?) ∧ s.pull.1.queue = ids.tail := by
  obtain ⟨result, queue⟩ := Host.pull_cases hs.faultless.known hs.pulls
  obtain ⟨same, left⟩ := View.host_pull s
  have queued : s.host.queuedIds s.context = ids := hs.queue
  rw [queued] at result queue
  refine ⟨Prod.ext rfl (same.trans result), left.trans (queue.resolve_right fun repeated => ?_)⟩
  have := hs.faultless.repeats
  omega

/-- The callback of the first id can be taken; the others stay installed. -/
theorem Installed.take (hs : Installed identity delay (task :: rest) s) :
    s.pull.1.worker.registry.callback? task = some (taskBody identity delay task)
      ∧ Installed identity delay rest (s.pull.1.takeCallback task).2 := by
  let body := taskBody identity delay task
  let taken := (s.pull.1.takeCallback task).2
  have keeps := View.keeps_pull s
  obtain ⟨pulled, queue⟩ := hs.pull
  have callback : s.pull.1.worker.registry.callback? task = some body := by
    rw [View.worker_pull, Registry.callback?, hs.callbacks]
    simp [body]
  obtain ⟨fresh, distinct⟩ := List.nodup_cons.mp hs.distinct
  have others : taken.worker.registry.callbacks
      = rest.map fun task => (task, taskBody identity delay task) := by
    show s.pull.1.worker.registry.callbacks.filter _ = _
    rw [View.worker_pull, hs.callbacks, List.map_cons, List.filter_cons_of_neg (by simp),
      List.filter_eq_self]
    intro c hc
    obtain ⟨key, there, rfl⟩ := List.mem_map.mp hc
    exact decide_eq_true fun (same : key = task) => fresh (same ▸ there)
  have installed : Installed identity delay rest taken := by
    refine hs.change keeps.context keeps.host.toLater ?_ ?_ ?_ others queue distinct
    · show s.pull.1.worker.identity = s.worker.identity
      rw [View.worker_pull]
    · show s.pull.1.worker.registry.running = none
      rw [View.worker_pull]
      exact hs.idle
    · show s.pull.1.worker.bridge.timers.waiting = []
      rw [View.worker_pull]
      exact hs.quiet
  exact ⟨callback, installed⟩

theorem Installed.run_cons (hs : Installed identity delay (task :: rest) s) (r : DrainReport) :
    DispatchLoop.run ⟨.pullPending, r⟩ s = DispatchLoop.run ⟨.pullPending, r.execute task⟩
      ((s.pull.1.takeCallback task).2.runTask task (taskBody identity delay task)).1 := by
  obtain ⟨pulled, -⟩ := hs.pull
  obtain ⟨callback, installed⟩ := hs.take
  obtain ⟨t, ran, -, -⟩ := installed.runTask task
  rw [DispatchLoop.run_pulled pulled, DispatchLoop.dispatch_executed callback ran, ran]

theorem Installed.serve (hs : Installed identity delay (task :: rest) s) (r : DrainReport) :
    ∃ t, DispatchLoop.run ⟨.pullPending, r⟩ s = DispatchLoop.run ⟨.pullPending, r.execute task⟩ t
      ∧ Installed identity delay rest t
      ∧ dispatched t.journal = dispatched s.journal ++ [(task, taskBody identity delay task)] := by
  obtain ⟨t, ran, left, dispatches⟩ := hs.take.2.runTask task
  have goesOn := hs.run_cons r
  rw [ran] at goesOn
  refine ⟨t, goesOn, left, ?_⟩
  rw [dispatches]
  exact congrArg (· ++ _) (Station.silent_pull s).1

/-- A loop executes all that is installed, in order. -/
theorem Installed.run (hs : Installed identity delay ids s) (r : DrainReport) :
    (DispatchLoop.run ⟨.pullPending, r⟩ s).2 = .ok { r with executed := r.executed ++ ids }
      ∧ dispatched (DispatchLoop.run ⟨.pullPending, r⟩ s).1.journal
        = dispatched s.journal ++ ids.map fun task => (task, taskBody identity delay task) := by
  induction ids generalizing s r with
  | nil =>
    have deeds : Station.Deeds HostCall.Any _ _ :=
      Station.deeds_log s.pull.1 (.drainFinished r)
    have silent := (Station.silent_deeds deeds).1.trans (Station.silent_pull s).1
    rw [DispatchLoop.run_dry hs.pull.1, List.append_nil, List.map_nil, List.append_nil]
    exact ⟨rfl, silent⟩
  | cons task rest ih =>
    obtain ⟨t, goesOn, installed, dispatches⟩ := hs.serve r
    obtain ⟨result, more⟩ := ih installed (r.execute task)
    rw [goesOn]
    refine ⟨result.trans ?_, more.trans ?_⟩
    · simp [DrainReport.execute]
    · rw [dispatches, List.append_assoc]
      rfl

theorem Installed.drain_eq (hs : Installed identity delay ids s) :
    s.drain = DispatchLoop.run ⟨.pullPending, .empty⟩ s := by
  have settled : DispatchLoop.start.step s = (⟨.pullPending, .empty⟩, s, .ok ()) :=
    congrArg (fun p => ((⟨.pullPending, .empty⟩ : DispatchLoop), p.1, Except.ok ()))
      (Station.settle_quiet hs.quiet none)
  exact DispatchLoop.run_step (fun h => by cases h) settled

/-- A drain executes all that is installed, in order, and skips and fails none. -/
theorem Installed.drain (hs : Installed identity delay ids s) :
    s.drain.2 = .ok ⟨ids, [], []⟩
      ∧ dispatched s.drain.1.journal
        = dispatched s.journal ++ ids.map fun task => (task, taskBody identity delay task) := by
  rw [hs.drain_eq]
  exact hs.run .empty

/-! ### Accepted manifests -/

/-- A worker that was just spawned on a host without faults has nothing installed. -/
theorem installed_nil {h k : Host} {d : ContextDescriptor} {handle : ContextHandle}
    {worker : Worker} (faults : h.faults = .zero) (outages : h.outages = .clear)
    (spawned : h.spawn d = (k, .ok handle)) (new : Session.IsNew worker handle) :
    Installed worker.identity delay [] ⟨k, worker, []⟩ := by
  have open' : ¬ 0 < h.outages.spawns := by rw [outages]; decide
  unfold Host.spawn at spawned
  rw [if_neg open'] at spawned
  obtain ⟨rfl, made⟩ := Prod.mk.inj spawned
  obtain rfl := Except.ok.inj made
  let k := (h.passSpawn.makeContext d).1
  let s : Station := ⟨k, worker, []⟩
  have context : s.context = .spawned h.contexts.length := congrArg Bridge.context new.bridge
  have there : k.context? s.context
      = some ⟨⟨.spawned h.contexts.length, d.worker, d.name⟩, .empty, 0⟩ := by
    rw [context]
    exact List.getElem?_concat_length
  have known : (k.context? s.context).isSome := by rw [there]; rfl
  have planned : k.faults = .zero := faults
  have refused : k.outages = { h.outages with spawns := h.outages.spawns - 1 } := rfl
  rw [outages] at refused
  have queue : s.queue = [] := Host.queuedIds_of_context? there
  have callbacks : s.worker.registry.callbacks = [] := by rw [new.registry]; rfl
  have idle : s.worker.registry.running = none := by rw [new.registry]; rfl
  have quiet : s.worker.bridge.timers.waiting = [] := by rw [new.bridge]; rfl
  exact ⟨⟨known, congrArg FaultCounts.repeatPulls planned,
      congrArg FaultCounts.droppedRegistrations planned, congrArg Outages.registrations refused⟩,
    congrArg Outages.pulls refused, congrArg Outages.timers refused, rfl, idle, quiet, callbacks,
    queue, .nil⟩

/-- The loader accepts no blank names. -/
theorem nonblank_of_accepted {text : String} (accepted : ofManifest text = .ok w) :
    ∀ name ∈ w.mainTasks, Text.isBlank name = false := by
  unfold ofManifest at accepted
  split at accepted
  · next v read =>
    unfold validate at accepted
    split at accepted
    · cases accepted
    · next none =>
      obtain rfl := Except.ok.inj accepted
      intro name member
      exact Bool.eq_false_iff.mpr (List.find?_eq_none.mp none name member)
  · cases accepted

theorem installCollected_eq (countable : w.delayMs * 1000000 ≤ maxWord) (s : Station) :
    w.installCollected s = .ok ((registerAll (.ofNanos (w.delayMs * 1000000)) w.taskIds s).1,
      (registerAll (.ofNanos (w.delayMs * 1000000)) w.taskIds s).2.map
        fun () => w.taskIds.length) := by
  unfold installCollected
  rw [Duration.ofMillis_eq_ok countable]
  rfl

/-- Where the ids can be collected, `installCollected` is how a workload is installed. -/
theorem install_of_collect (collected : w.collect = .ok w.taskIds) (s : Station) :
    w.install s = w.installCollected s := by
  unfold install installCollected
  rw [collected]
  rfl

/-- An accepted manifest at a worker that was just spawned on a host without faults, if its
delay can be counted in nanoseconds and the room for its ids fits a block of memory. No
family's name is blank, and the ids are collected. When no family occurs twice, or families
have no members, the workload is installed with all of its ids, which are different, and a
drain executes them in order and fails and skips none. Otherwise installing it stops at the
first id that is there already; the ids before it stay registered. -/
theorem accepted_manifest_runs {text : String} {h k : Host} {d : ContextDescriptor}
    {handle : ContextHandle} {worker : Worker} (accepted : ofManifest text = .ok w)
    (countable : w.delayMs * 1000000 ≤ maxWord) (roomy : w.room * idBytes ≤ maxBytes)
    (faults : h.faults = .zero) (outages : h.outages = .clear)
    (spawned : h.spawn d = (k, .ok handle)) (new : Session.IsNew worker handle) :
    let s : Station := ⟨k, worker, []⟩
    (∀ name ∈ w.mainTasks, Text.isBlank name = false)
    ∧ w.collect = .ok w.taskIds ∧ w.taskIds.length ≤ maxWord
    ∧ (w.subTasks = 0 ∨ w.mainTasks.Nodup → ∃ t,
      w.install s = .ok (t, .ok w.taskIds.length) ∧ w.taskIds.Nodup
      ∧ t.drain.2 = .ok ⟨w.taskIds, [], []⟩
      ∧ (dispatched t.drain.1.journal).map Prod.fst = w.taskIds)
    ∧ (w.subTasks ≠ 0 → ¬ w.mainTasks.Nodup → ∃ before task after t,
      w.taskIds = before ++ task :: after ∧ before.Nodup ∧ task ∈ before
      ∧ w.install s = .ok (t, .error (.duplicateTask task))
      ∧ t.queue = before ∧ t.worker.registry.tasks = before) := by
  intro s
  let delay : Duration := .ofNanos (w.delayMs * 1000000)
  have fresh : Installed worker.identity delay [] s := installed_nil faults outages spawned new
  have collected : w.collect = .ok w.taskIds := collect_eq_ok_iff.mpr ⟨roomy, rfl⟩
  have installs := (install_of_collect collected s).trans (installCollected_eq countable s)
  refine ⟨nonblank_of_accepted accepted, collected, length_le_maxWord roomy,
    fun distinct => ?_, fun some twice => ?_⟩
  · have different : w.taskIds.Nodup := nodup_taskIds_iff.mpr distinct
    rcases registerAll_cases fresh w.taskIds with ⟨t, all, installed, silent⟩
      | ⟨before, task, after, t, split, again, -, -⟩
    · obtain ⟨report, dispatches⟩ := installed.drain
      refine ⟨t, ?_, different, report, ?_⟩
      · rw [installs, all]
        rfl
      · have none : dispatched s.journal = [] := rfl
        rw [dispatches, silent, none, List.nil_append, List.nil_append, List.map_map]
        exact List.map_id w.taskIds
    · rw [split] at different
      obtain ⟨-, -, apart⟩ := List.nodup_append.mp different
      exact absurd rfl (apart task again task List.mem_cons_self)
  · rcases registerAll_cases fresh w.taskIds with ⟨t, -, installed, -⟩
      | ⟨before, task, after, t, split, again, stopped, installed⟩
    · exact absurd (nodup_taskIds_iff.mp installed.distinct) (by simp [some, twice])
    · refine ⟨before, task, after, t, split, installed.distinct, again, ?_, installed.queue,
        installed.tasks⟩
      rw [installs, stopped]
      rfl

/-- A worker that was just spawned on an empty host. -/
def newcomer : Station :=
  ⟨(Host.empty.spawn ⟨"worker", none⟩).1, .ofHandle ⟨.spawned 0, none, "worker"⟩, []⟩

/-- One family of two tasks, which pause for a millisecond. -/
def pausingPair : Workload := ⟨["alpha"], 2, 1⟩

theorem accepted_manifest_runs_pausingPair :
    ofManifest "\x7b\"main_tasks\":[\"alpha\"],\"sub_tasks\":2,\"delay_ms\":1\x7d" = .ok pausingPair
    ∧ ∃ t, pausingPair.install newcomer = .ok (t, .ok 2)
      ∧ t.drain.2 = .ok ⟨[⟨"alpha-0"⟩, ⟨"alpha-1"⟩], [], []⟩ := by
  have accepted :
      ofManifest "\x7b\"main_tasks\":[\"alpha\"],\"sub_tasks\":2,\"delay_ms\":1\x7d"
        = .ok pausingPair := rfl
  have spawned : Host.empty.spawn ⟨"worker", none⟩
      = (newcomer.host, .ok ⟨.spawned 0, none, "worker"⟩) := rfl
  have new : Session.IsNew newcomer.worker ⟨.spawned 0, none, "worker"⟩ := ⟨rfl, rfl, rfl⟩
  have ids : pausingPair.taskIds = [⟨"alpha-0"⟩, ⟨"alpha-1"⟩] := by decide +kernel
  have roomy : pausingPair.room * idBytes ≤ maxBytes := roomy_of_few (by decide +kernel)
  obtain ⟨-, -, -, runs, -⟩ :=
    accepted_manifest_runs accepted (by decide) roomy rfl rfl spawned new
  obtain ⟨t, installs, -, report, -⟩ := runs (Or.inr (by decide))
  rw [ids] at installs report
  exact ⟨accepted, t, installs, report⟩

/-- Manifests that are accepted, but not installed: a family occurs twice, the delay is too
long to be counted, or there is no room for the ids. -/
theorem accepted_manifest_refused :
    (ofManifest "\x7b\"main_tasks\":[\"a\",\"a\"],\"sub_tasks\":1\x7d" = .ok ⟨["a", "a"], 1, 0⟩
      ∧ ∃ t, install ⟨["a", "a"], 1, 0⟩ newcomer = .ok (t, .error (.duplicateTask ⟨"a-0"⟩)))
    ∧ (ofManifest "\x7b\"main_tasks\":[\"a\"],\"sub_tasks\":1,\"delay_ms\":18446744073710\x7d"
        = .ok ⟨["a"], 1, 18446744073710⟩
      ∧ install ⟨["a"], 1, 18446744073710⟩ newcomer = .error .multiply)
    ∧ (ofManifest "\x7b\"main_tasks\":[\"a\"],\"sub_tasks\":18446744073709551615\x7d"
        = .ok ⟨["a"], 18446744073709551615, 0⟩
      ∧ install ⟨["a"], 18446744073709551615, 0⟩ newcomer = .error .capacity) := by
  have roomy : collect ⟨["a", "a"], 1, 0⟩ = .ok (taskIds ⟨["a", "a"], 1, 0⟩) :=
    collect_eq_ok_iff.mpr ⟨roomy_of_few (by decide +kernel), rfl⟩
  have crowded : collect ⟨["a"], 18446744073709551615, 0⟩ = .error .capacity := by
    have room : Workload.room ⟨["a"], 18446744073709551615, 0⟩ = 18446744073709551615 :=
      doubled_of_le (by decide)
    rw [collect, room]
    rfl
  have full : install ⟨["a"], 18446744073709551615, 0⟩ newcomer = .error .capacity := by
    unfold install
    rw [crowded]
    rfl
  exact ⟨⟨by decide +kernel, _, (install_of_collect roomy newcomer).trans rfl⟩,
    ⟨by decide +kernel, rfl⟩, by decide +kernel, full⟩

end Workload
end TaskHost
