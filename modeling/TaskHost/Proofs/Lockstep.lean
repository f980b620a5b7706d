/-
# Registry and queue in lockstep

On a host without faults, a worker that has its context to itself and makes no raw
pushes and pulls keeps its registry and its queue in lockstep: the registered
tasks are those that are queued and those that loops hold, each of them once
(`View.Lockstep`). Every step of the view preserves this, also inside callbacks
and while other workers act (`View.lockstep_step`). So the host never refuses a
registration that the registry accepts (`Station.Paired.register_result`), and no
loop finds an id without a callback.

Key definitions: `HostCall.SparesQueue`, `Host.Faultless`, `Station.Distinct`,
`Station.Paired`, `View.Lockstep`.
Key theorems: `View.distinct_path`, `View.lockstep_step`, `View.lockstep_path`,
`Station.Paired.register_result`.
-/
import TaskHost.Proofs.Views

namespace TaskHost

/-- Whether a call leaves all queues alone. -/
def HostCall.SparesQueue : HostCall → Prop
  | .push _ => False
  | .pull => False
  | _ => True

/-- Whether no fault is planned, and no outage, that could part a queue from a
registry; the context is known. -/
structure Host.Faultless (id : ContextId) (h : Host) : Prop where
  known : (h.context? id).isSome
  repeats : h.faults.repeatPulls = 0
  drops : h.faults.droppedRegistrations = 0
  registrations : h.outages.registrations = 0

theorem Host.Faultless.later {id : ContextId} {h k : Host} (hf : h.Faultless id)
    (later : h.Later k) : k.Faultless id where
  known := by
    obtain ⟨c, hc⟩ := Option.isSome_iff_exists.mp hf.known
    obtain ⟨d, hd, -⟩ := later.known id c hc
    rw [hd]
    rfl
  repeats := Nat.le_zero.mp (hf.repeats ▸ later.repeats)
  drops := Nat.le_zero.mp (hf.drops ▸ later.drops)
  registrations := Nat.le_zero.mp (hf.registrations ▸ later.refusedRegistrations)

namespace Station

variable {law : HostCall → Prop} {s t : Station} {held : List TaskId}

/-! ### No id twice -/

/-- Whether no task is registered twice and no id queued twice. -/
structure Distinct (s : Station) : Prop where
  tasks : s.worker.registry.tasks.Nodup
  queue : s.queue.Nodup

theorem Distinct.congr (hs : s.Distinct)
    (hr : t.worker.registry.tasks = s.worker.registry.tasks) (hq : t.queue = s.queue) : t.Distinct :=
  ⟨hr ▸ hs.tasks, hq ▸ hs.queue⟩

theorem nodup_concat {l : List TaskId} {task : TaskId} (h : l.Nodup) (fresh : task ∉ l) :
    (l ++ [task]).Nodup := by
  have swapped : (l ++ [task]).Perm (task :: l) := List.perm_append_singleton task l
  exact swapped.nodup_iff.mpr (List.nodup_cons.mpr ⟨fresh, h⟩)

/-- The host queues no id twice, whatever is registered. -/
theorem nodup_registerTask (h : s.queue.Nodup) (task : TaskId) :
    ((s.host.registerTask s.context task).1.queuedIds s.context).Nodup := by
  rcases Host.queuedIds_registerTask s.host s.context task with ⟨-, -, fresh, queue⟩ | ⟨queue, -⟩
  · rw [queue]
    exact nodup_concat h fresh
  · rw [queue]
    exact h

theorem distinct_effect (hs : s.Distinct) (h : Effect law s t) : t.Distinct := by
  cases h with
  | quiet h logger host queue => exact hs.congr rfl queue
  | registered task body h fresh accepted obeys =>
    have queue := nodup_registerTask hs.queue task
    rw [accepted] at queue
    refine ⟨?_, queue⟩
    show (s.worker.registry.add task body).tasks.Nodup
    rw [Registry.tasks_add]
    exact nodup_concat hs.tasks (Registry.refusal?_eq_none_iff.mp fresh).1
  | timed delay body obeys =>
    exact hs.congr rfl (queue_congr (Host.contexts_setTimeout s.host delay) rfl)
  | pushed task allowed => exact ⟨hs.tasks, nodup_registerTask hs.queue task⟩
  | pulled allowed => exact ⟨hs.tasks, hs.queue.sublist (Host.sublist_pull s.host s.context)⟩

theorem distinct_deed (hs : s.Distinct) (h : Deed law s t) : t.Distinct := by
  cases h with
  | act a ha => exact distinct_effect hs (effect_act a ha)
  | note o ho => exact hs.congr rfl rfl
  | poll =>
    obtain ⟨registry, context, -, contexts⟩ := s.poll_facts
    exact hs.congr (by rw [registry]) (queue_congr contexts context)

/-! ### Registered, queued and held -/

/-- Whether the registered tasks are the queued and the held ids, each once. -/
structure Paired (s : Station) (held : List TaskId) : Prop where
  tasks : s.worker.registry.tasks.Perm (s.queue ++ held)
  nodup : (s.queue ++ held).Nodup

theorem Paired.mem_iff (hs : s.Paired held) {task : TaskId} :
    task ∈ s.worker.registry.tasks ↔ task ∈ s.queue ∨ task ∈ held := by
  rw [hs.tasks.mem_iff, List.mem_append]

theorem Paired.congr (hs : s.Paired held) (hr : t.worker.registry.tasks = s.worker.registry.tasks)
    (hq : t.queue = s.queue) : t.Paired held :=
  ⟨by rw [hr, hq]; exact hs.tasks, by rw [hq]; exact hs.nodup⟩

theorem Paired.of_held {held' : List TaskId} (hs : s.Paired held) (h : held' = held) :
    s.Paired held' := h ▸ hs

theorem Paired.add (hs : s.Paired held) {task : TaskId} (fresh : task ∉ s.worker.registry.tasks)
    (hr : t.worker.registry.tasks = s.worker.registry.tasks ++ [task])
    (hq : t.queue = s.queue ++ [task]) : t.Paired held := by
  have moved : (s.queue ++ [task] ++ held).Perm (s.queue ++ held ++ [task]) := by
    simp only [List.append_assoc]
    exact List.Perm.append_left _ List.perm_append_comm
  constructor
  · rw [hr, hq]
    exact (hs.tasks.append_right _).trans moved.symm
  · rw [hq, moved.nodup_iff, ← (hs.tasks.append_right [task]).nodup_iff]
    exact nodup_concat (hs.tasks.nodup_iff.mpr hs.nodup) fresh

theorem queue_registered {task : TaskId} {body : Body} {h : Host}
    (hf : s.host.Faultless s.context)
    (accepted : s.host.registerTask s.context task = (h, .ok ())) :
    task ∉ s.queue ∧ ((s.withRegistry (s.worker.registry.add task body) h).note
      (.registered task body s.host.losesNext)).queue = s.queue ++ [task] := by
  have kept := Host.losesNext_eq_false hf.drops
  rcases Host.queuedIds_of_registerTask_ok accepted with ⟨lost, -⟩ | ⟨-, fresh, queue⟩
  · rw [kept] at lost
    cases lost
  · exact ⟨fresh, queue⟩

theorem paired_effect (spares : ∀ c, law c → c.SparesQueue) (hf : s.host.Faultless s.context)
    (hs : s.Paired held) (h : Effect law s t) : t.Paired held := by
  cases h with
  | quiet h logger host queue => exact hs.congr rfl queue
  | registered task body h fresh accepted obeys =>
    exact hs.add (Registry.refusal?_eq_none_iff.mp fresh).1 Registry.tasks_add
      (queue_registered hf accepted).2
  | timed delay body obeys =>
    exact hs.congr rfl (queue_congr (Host.contexts_setTimeout s.host delay) rfl)
  | pushed task allowed => exact (spares _ allowed).elim
  | pulled allowed => exact (spares _ allowed).elim

theorem paired_deed (spares : ∀ c, law c → c.SparesQueue) (hf : s.host.Faultless s.context)
    (hs : s.Paired held) (h : Deed law s t) : t.Paired held := by
  cases h with
  | act a ha => exact paired_effect spares hf hs (effect_act a ha)
  | note o ho => exact hs.congr rfl rfl
  | poll =>
    obtain ⟨registry, context, -, contexts⟩ := s.poll_facts
    exact hs.congr (by rw [registry]) (queue_congr contexts context)

/-- What a registration comes to. -/
theorem Paired.register_result (hs : s.Paired held) (hf : s.host.Faultless s.context)
    (task : TaskId) (body : Body) :
    (s.register task body).2
      = if task ∈ s.worker.registry.tasks then .error (.duplicateTask task)
        else if s.worker.registry.running = some task then .error (.taskRunning task)
        else .ok () := by
  unfold register
  rw [Registry.register_eq]
  unfold Registry.refusal? Registry.contains
  by_cases registered : task ∈ s.worker.registry.tasks
  · rw [if_pos (Registry.isSome_callback?_iff.mpr registered), if_pos registered]
  · have absent : ¬ (s.worker.registry.callback? task).isSome :=
      fun h => registered (Registry.isSome_callback?_iff.mp h)
    rw [if_neg absent, if_neg registered]
    by_cases running : s.worker.registry.running = some task
    · rw [if_pos running, if_pos running]
    · have fresh : task ∉ s.queue := fun h => registered (hs.mem_iff.mpr (Or.inl h))
      have accepted := Host.registerTask_eq_ok hf.known hf.registrations fresh
      rw [if_neg running, if_neg running]
      cases hr : s.host.registerTask s.context task with
      | mk h r =>
        rw [hr] at accepted
        simp only at accepted
        subst accepted
        rfl

end Station

namespace View

variable {law : HostCall → Prop} {v w : View}

theorem distinct_step (hv : v.station.Distinct) (h : Step law v w) : w.station.Distinct := by
  cases h with
  | elsewhere loops s h later same => exact hv.congr rfl (Host.queuedIds_congr same)
  | move h =>
    cases h with
    | deed loops h => exact Station.distinct_deed hv h
    | pull pre post report s =>
      have tasks : s.pull.1.worker.registry.tasks = s.worker.registry.tasks := by rw [worker_pull]
      refine ⟨tasks ▸ hv.tasks, ?_⟩
      rw [(host_pull s).2]
      exact hv.queue.sublist (Host.sublist_pull s.host s.context)
    | take pre post report s task body registered =>
      refine ⟨?_, hv.queue⟩
      show (s.worker.registry.take task).2.tasks.Nodup
      rw [Registry.tasks_take]
      exact hv.tasks.filter _
    | _ => exact hv.congr rfl rfl

/-- Whatever a worker and its host do, no id is registered or queued twice. -/
theorem distinct_path (hv : v.station.Distinct) (h : Path law v w) : w.station.Distinct := by
  induction h with
  | refl => exact hv
  | tail _ step ih => exact distinct_step ih step

/-- Registry and queue in lockstep: the registered tasks are the queued ids and the
ids that loops hold, all of them different; and no loop has skipped an id. -/
structure Lockstep (v : View) : Prop where
  faultless : v.station.host.Faultless v.station.context
  paired : v.station.Paired v.held
  skipped : ∀ l ∈ v.loops, l.report.skipped = []

theorem heldBy_insert {pre post : List DispatchLoop} {l : DispatchLoop}
    (h : l.state.held? = none) : heldBy (pre ++ l :: post) = heldBy (pre ++ post) := by
  simp only [heldBy_append, heldBy_cons, h, Option.toList, List.nil_append]

theorem heldBy_replace {pre post : List DispatchLoop} {l k : DispatchLoop}
    (h : k.state.held? = l.state.held?) : heldBy (pre ++ k :: post) = heldBy (pre ++ l :: post) := by
  simp only [heldBy_append, heldBy_cons, h]

theorem skipped_replace {pre post : List DispatchLoop} {l k : DispatchLoop}
    (all : ∀ m ∈ pre ++ l :: post, m.report.skipped = []) (hk : k.report.skipped = []) :
    ∀ m ∈ pre ++ k :: post, m.report.skipped = [] := by
  simp only [List.forall_mem_append, List.forall_mem_cons] at all ⊢
  exact ⟨all.1, hk, all.2.2⟩

/-- A pull moves the first queued id to the loop that pulls. -/
theorem paired_pull {pre post : List DispatchLoop} {report : DrainReport} {s : Station}
    (repeats : s.host.faults.repeatPulls = 0)
    (hs : s.Paired (heldBy (pre ++ ⟨.pullPending, report⟩ :: post))) :
    s.pull.1.Paired (heldBy (pre ++ ⟨.afterPull s.pull.2, report⟩ :: post)) := by
  have tasks : s.pull.1.worker.registry.tasks = s.worker.registry.tasks := by rw [worker_pull]
  rw [heldBy_append, heldBy_cons] at hs ⊢
  rcases queue_pull s with ⟨e, result, queue⟩ | ⟨result, queue | ⟨repeated, -⟩⟩
  · rw [result]
    exact hs.congr tasks queue
  · rw [result]
    cases hq : s.queue with
    | nil => exact hs.congr tasks (queue.trans (by rw [hq]; rfl))
    | cons task rest =>
      have moved : (task :: rest ++ (heldBy pre ++ heldBy post)).Perm
          (rest ++ (heldBy pre ++ task :: heldBy post)) := by
        rw [← List.append_assoc rest, ← List.append_assoc (task :: rest)]
        exact List.perm_middle.symm
      obtain ⟨perm, nodup⟩ := hs
      rw [hq] at perm nodup queue
      constructor
      · rw [tasks, queue]
        exact perm.trans moved
      · rw [queue]
        exact moved.nodup_iff.mp nodup
  · omega

theorem filter_ne_middle {a b : List TaskId} {task : TaskId} (h : (a ++ task :: b).Nodup) :
    (a ++ task :: b).filter (fun t => t ≠ task) = a ++ b := by
  obtain ⟨-, hb, disjoint⟩ := List.nodup_append.mp h
  have left : a.filter (fun t => t ≠ task) = a :=
    List.filter_eq_self.mpr fun t ht => decide_eq_true (disjoint t ht task List.mem_cons_self)
  have right : b.filter (fun t => t ≠ task) = b :=
    List.filter_eq_self.mpr fun t ht =>
      decide_eq_true fun e => (List.nodup_cons.mp hb).1 (e ▸ ht)
  rw [List.filter_append, List.filter_cons, left, right, if_neg (by simp)]

/-- Taking a callback out, and running it, takes the id from registry and loop. -/
theorem paired_take {pre post : List DispatchLoop} {report : DrainReport} {s t : Station}
    {task : TaskId} (hs : s.Paired (heldBy (pre ++ ⟨.dispatching task, report⟩ :: post)))
    (hr : t.worker.registry.tasks = s.worker.registry.tasks.filter fun k => k ≠ task)
    (hq : t.queue = s.queue) :
    t.Paired (heldBy (pre ++ ⟨.pullPending, report⟩ :: post)) := by
  obtain ⟨perm, nodup⟩ := hs
  simp only [heldBy_append, heldBy_cons, LoopState.held?, Option.toList, List.cons_append,
    List.nil_append, ← List.append_assoc] at perm nodup ⊢
  have left := filter_ne_middle nodup
  constructor
  · rw [hr, hq]
    refine (perm.filter _).trans ?_
    rw [left, List.append_assoc]
  · rw [hq]
    have sub := nodup.sublist (List.filter_sublist (p := fun t => decide (t ≠ task)))
    rw [left, List.append_assoc] at sub
    exact sub

theorem lockstep_move (spares : ∀ c, law c → c.SparesQueue) (hv : v.Lockstep)
    (h : Move law v w) : w.Lockstep := by
  have keeps := keeps_move h
  have faultless : w.station.host.Faultless w.station.context := by
    rw [keeps.context]
    exact hv.faultless.later keeps.host.toLater
  obtain ⟨safe, paired, skipped⟩ := hv
  cases h with
  | deed loops h => exact ⟨faultless, Station.paired_deed spares safe paired h, skipped⟩
  | enter pre post s =>
    have held : heldBy (pre ++ .start :: post) = heldBy (pre ++ post) := heldBy_insert rfl
    refine ⟨faultless, paired.of_held held, ?_⟩
    simp only [List.forall_mem_append, List.forall_mem_cons] at skipped ⊢
    exact ⟨skipped.1, rfl, skipped.2⟩
  | leave pre post l s free =>
    refine ⟨faultless, paired.of_held (heldBy_insert free).symm, ?_⟩
    simp only [List.forall_mem_append, List.forall_mem_cons] at skipped ⊢
    exact ⟨skipped.1, skipped.2.2⟩
  | turn pre post l k s free free' same =>
    have hl : l.report.skipped = [] := skipped l (List.mem_append_right _ List.mem_cons_self)
    have held : heldBy (pre ++ k :: post) = heldBy (pre ++ l :: post) :=
      heldBy_replace (free'.trans free.symm)
    exact ⟨faultless, paired.of_held held, skipped_replace skipped (same.trans hl)⟩
  | pull pre post report s =>
    have hl : report.skipped = [] := skipped _ (List.mem_append_right _ List.mem_cons_self)
    exact ⟨faultless, paired_pull safe.repeats paired, skipped_replace skipped hl⟩
  | take pre post report s task body registered =>
    have hl : report.skipped = [] := skipped _ (List.mem_append_right _ List.mem_cons_self)
    exact ⟨faultless, paired_take paired Registry.tasks_take rfl, skipped_replace skipped hl⟩
  | skip pre post report s task unregistered =>
    have held : task ∈ heldBy (pre ++ ⟨.dispatching task, report⟩ :: post) := by
      rw [heldBy_append, heldBy_cons]
      exact List.mem_append_right _ List.mem_cons_self
    have absent := Registry.callback?_eq_none_iff.mp unregistered
    exact absurd (paired.mem_iff.mpr (Or.inr held)) absent
  | ended loops s task r => exact ⟨faultless, paired.congr rfl rfl, skipped⟩
  | finish loops s => exact ⟨faultless, paired.congr rfl rfl, skipped⟩

/-- Every step keeps registry and queue in lockstep. -/
theorem lockstep_step (spares : ∀ c, law c → c.SparesQueue) (hv : v.Lockstep)
    (h : Step law v w) : w.Lockstep := by
  cases h with
  | move h => exact lockstep_move spares hv h
  | elsewhere loops s h later same =>
    exact ⟨hv.faultless.later later, hv.paired.congr rfl (Host.queuedIds_congr same), hv.skipped⟩

theorem lockstep_path (spares : ∀ c, law c → c.SparesQueue) (hv : v.Lockstep)
    (h : Path law v w) : w.Lockstep := by
  induction h with
  | refl => exact hv
  | tail _ step ih => exact lockstep_step spares ih step

end View
end TaskHost
