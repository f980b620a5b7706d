/-
# A drain serves one ordered list

The registered callbacks, in the order in which their ids are queued, are one list
(`Station.backlog`). On a host without faults, registering puts an entry at its end
and dispatching takes the first one away, whatever callbacks do meanwhile. So what
was dispatched so far, followed by the list, is always the list at the beginning
followed by what was registered since (`Station.Orderly`); every deed and every
step of a loop preserves this (`Station.orderly_deeds`, `DispatchLoop.fifo_step`).
When the loop is drained the list is empty (`Station.drain_serves_backlog`).

Key definitions: `registered`, `dispatched`, `concluded`, `pulledIds`, `Station.backlog`,
`Station.Orderly`, `DispatchLoop.Fifo`.
Key theorems: `Station.silent_deeds`, `Station.told_runTask`, `Station.orderly_deeds`,
`DispatchLoop.fifo_step`, `Station.drain_serves_backlog`.
-/
import TaskHost.Proofs.Accounts

namespace TaskHost

/-! ### What the journal tells in order -/

/-- The pulled task whose callback ended, and the outcome. -/
def Occurrence.concluded? : Occurrence → Option (TaskId × Except TaskError Unit)
  | .ended (.task task) r => some (task, r)
  | _ => none

/-- The id that a pull brought. -/
def Occurrence.brought? : Occurrence → Option TaskId
  | .pulled task => task
  | _ => none

/-- The accepted registrations, each task with its callback. -/
def registered (journal : List Occurrence) : List (TaskId × Body) :=
  (journal.filterMap Occurrence.accepted?).map fun p => (p.1, p.2.1)

/-- The pulled tasks whose callbacks began, each with the callback. -/
def dispatched (journal : List Occurrence) : List (TaskId × Body) :=
  journal.filterMap Occurrence.invoked?

/-- The pulled tasks whose callbacks ended, each with the outcome. -/
def concluded (journal : List Occurrence) : List (TaskId × Except TaskError Unit) :=
  journal.filterMap Occurrence.concluded?

/-- The ids that pulls brought. -/
def pulledIds (journal : List Occurrence) : List TaskId := journal.filterMap Occurrence.brought?

/-- The tasks that ended well. -/
def succeeded (ends : List (TaskId × Except TaskError Unit)) : List TaskId :=
  ends.filterMap fun p => match p.2 with
    | .ok () => some p.1
    | .error _ => none

/-- The tasks that failed, each with the text of its error. -/
def failures (ends : List (TaskId × Except TaskError Unit)) : List (TaskId × String) :=
  ends.filterMap fun p => match p.2 with
    | .ok () => none
    | .error e => some (p.1, e.message)

theorem Occurrence.IsRemark.inconclusive {o : Occurrence} (ho : o.IsRemark) :
    o.concluded? = none := by
  cases o with
  | ended trigger outcome => cases trigger <;> simp_all [IsRemark, concluded?]
  | _ => rfl

theorem Occurrence.IsRemark.unbrought {o : Occurrence} (ho : o.IsRemark) : o.brought? = none := by
  cases o with
  | pulled task => exact ho.elim
  | _ => rfl

theorem registered_concat (journal : List Occurrence) (o : Occurrence) :
    registered (journal ++ [o])
      = registered journal ++ (o.accepted?.map fun p => (p.1, p.2.1)).toList := by
  cases h : o.accepted? <;> simp [registered, List.filterMap_append, h]

theorem dispatched_concat (journal : List Occurrence) (o : Occurrence) :
    dispatched (journal ++ [o]) = dispatched journal ++ o.invoked?.toList := by
  cases h : o.invoked? <;> simp [dispatched, List.filterMap_append, h]

theorem concluded_concat (journal : List Occurrence) (o : Occurrence) :
    concluded (journal ++ [o]) = concluded journal ++ o.concluded?.toList := by
  cases h : o.concluded? <;> simp [concluded, List.filterMap_append, h]

theorem pulledIds_concat (journal : List Occurrence) (o : Occurrence) :
    pulledIds (journal ++ [o]) = pulledIds journal ++ o.brought?.toList := by
  cases h : o.brought? <;> simp [pulledIds, List.filterMap_append, h]

namespace Station

variable {law : HostCall → Prop} {s t : Station} {held : List TaskId} {base : List (TaskId × Body)}

/-- What is to be dispatched when ids are pulled in this order. -/
def backlog (s : Station) (ids : List TaskId) : List (TaskId × Body) :=
  ids.filterMap fun task => (s.worker.registry.callback? task).map fun body => (task, body)

theorem backlog_append (s : Station) (a b : List TaskId) :
    s.backlog (a ++ b) = s.backlog a ++ s.backlog b := List.filterMap_append

theorem backlog_congr {ids : List TaskId} (same : ∀ task ∈ ids,
    t.worker.registry.callback? task = s.worker.registry.callback? task) :
    t.backlog ids = s.backlog ids := by
  induction ids with
  | nil => rfl
  | cons task rest ih =>
    have later := ih fun k hk => same k (List.mem_cons_of_mem _ hk)
    simp only [backlog, List.filterMap_cons, same task List.mem_cons_self] at later ⊢
    rw [later]

theorem backlog_singleton {task : TaskId} {body : Body}
    (h : s.worker.registry.callback? task = some body) : s.backlog [task] = [(task, body)] := by
  simp [backlog, h]

theorem map_fst_backlog {ids : List TaskId} (all : ∀ task ∈ ids, task ∈ s.worker.registry.tasks) :
    (s.backlog ids).map Prod.fst = ids := by
  induction ids with
  | nil => rfl
  | cons task rest ih =>
    have first := Registry.isSome_callback?_iff.mpr (all task List.mem_cons_self)
    obtain ⟨body, hb⟩ := Option.isSome_iff_exists.mp first
    have later := ih fun k hk => all k (List.mem_cons_of_mem _ hk)
    simp only [backlog, List.filterMap_cons, hb, Option.map_some, List.map_cons] at later ⊢
    rw [later]

/-- The list that a worker serves, while a loop holds some ids: the host shows no
faults, registry and queue are in lockstep, and what was dispatched and what is
still to be dispatched are together the list at the beginning and all that was
registered since. -/
structure Orderly (base : List (TaskId × Body)) (held : List TaskId) (s : Station) : Prop where
  faultless : s.host.Faultless s.context
  pulls : s.host.outages.pulls = 0
  paired : s.Paired held
  order : dispatched s.journal ++ s.backlog (held ++ s.queue) = base ++ registered s.journal

/-- A registration puts its entry at the end of the list. -/
theorem backlog_add {task : TaskId} {body : Body} (paired : s.Paired held)
    (fresh : task ∉ s.worker.registry.tasks)
    (callback : ∀ key, t.worker.registry.callback? key
      = if key = task then some body else s.worker.registry.callback? key)
    (queue : t.queue = s.queue ++ [task]) :
    t.backlog (held ++ t.queue) = s.backlog (held ++ s.queue) ++ [(task, body)] := by
  have others : ∀ key ∈ held ++ s.queue,
      t.worker.registry.callback? key = s.worker.registry.callback? key := by
    intro key hk
    have here : key ∈ s.worker.registry.tasks :=
      paired.mem_iff.mpr (List.mem_append.mp hk).symm
    rw [callback, if_neg]
    rintro rfl
    exact fresh here
  rw [queue, ← List.append_assoc, backlog_append, backlog_congr others, backlog_singleton]
  rw [callback, if_pos rfl]

/-- Nothing is dispatched or registered, and the list stays. -/
theorem Orderly.same (hs : Orderly base held s) (keeps : s.Keeps t)
    (callbacks : t.worker.registry.callbacks = s.worker.registry.callbacks)
    (queue : t.queue = s.queue) (dispatches : dispatched t.journal = dispatched s.journal)
    (registrations : registered t.journal = registered s.journal) : Orderly base held t where
  faultless := by
    rw [keeps.context]
    exact hs.faultless.later keeps.host.toLater
  pulls := Nat.le_zero.mp (hs.pulls ▸ keeps.host.refusedPulls)
  paired := hs.paired.congr (congrArg (List.map Prod.fst) callbacks) queue
  order := by
    have backlog : t.backlog (held ++ s.queue) = s.backlog (held ++ s.queue) :=
      backlog_congr fun task _ => by rw [Registry.callback?, callbacks]; rfl
    rw [dispatches, registrations, queue, backlog]
    exact hs.order

theorem Orderly.note (hs : Orderly base held s) {o : Occurrence} (ho : o.accepted? = none)
    (ho' : o.invoked? = none) : Orderly base held (s.note o) := by
  refine hs.same ⟨rfl, rfl, .refl _ _⟩ rfl rfl ?_ ?_
  · refine (dispatched_concat s.journal o).trans ?_
    rw [ho']
    exact List.append_nil _
  · refine (registered_concat s.journal o).trans ?_
    rw [ho]
    exact List.append_nil _

theorem orderly_effect (spares : ∀ c, law c → c.SparesQueue) (hs : Orderly base held s)
    (h : Effect law s t) : Orderly base held t := by
  have keeps := keeps_effect h
  have paired := paired_effect spares hs.faultless hs.paired h
  cases h with
  | quiet h logger host queue => exact hs.same keeps rfl queue rfl rfl
  | registered task body h fresh accepted obeys =>
    have absent := (Registry.refusal?_eq_none_iff.mp fresh).1
    have callback : ∀ key, (s.worker.registry.add task body).callback? key
        = if key = task then some body else s.worker.registry.callback? key :=
      Registry.callback?_add (Registry.callback?_eq_none_iff.mpr absent)
    refine ⟨hs.faultless.later keeps.host.toLater,
      Nat.le_zero.mp (hs.pulls ▸ keeps.host.refusedPulls), paired, ?_⟩
    rw [backlog_add hs.paired absent callback (queue_registered hs.faultless accepted).2]
    show dispatched (s.journal ++ [_]) ++ _ = base ++ registered (s.journal ++ [_])
    rw [dispatched_concat, registered_concat, ← List.append_assoc base, ← hs.order]
    simp [Occurrence.invoked?, Occurrence.accepted?]
  | timed delay body obeys =>
    exact hs.same keeps rfl (queue_congr (Host.contexts_setTimeout s.host delay) rfl) rfl rfl
  | pushed task allowed => exact (spares _ allowed).elim
  | pulled allowed => exact (spares _ allowed).elim

theorem orderly_deed (spares : ∀ c, law c → c.SparesQueue) (hs : Orderly base held s)
    (h : Deed law s t) : Orderly base held t := by
  have keeps := keeps_deed h
  cases h with
  | act a ha => exact orderly_effect spares hs (effect_act a ha)
  | note o ho => exact hs.note ho.silent.1 ho.silent.2
  | poll =>
    obtain ⟨registry, context, -, contexts⟩ := s.poll_facts
    exact hs.same keeps (by rw [registry]) (queue_congr contexts context) rfl rfl

theorem orderly_deeds (spares : ∀ c, law c → c.SparesQueue) (hs : Orderly base held s)
    (h : Deeds law s t) : Orderly base held t := by
  induction h with
  | refl => exact hs
  | tail _ step ih => exact orderly_deed spares ih step

theorem silent_effect (h : Effect law s t) :
    dispatched t.journal = dispatched s.journal ∧ concluded t.journal = concluded s.journal
      ∧ pulledIds t.journal = pulledIds s.journal := by
  cases h with
  | registered task body h fresh accepted obeys =>
    refine ⟨(dispatched_concat s.journal _).trans (List.append_nil _), ?_, ?_⟩
    · exact (concluded_concat s.journal _).trans (List.append_nil _)
    · exact (pulledIds_concat s.journal _).trans (List.append_nil _)
  | _ => exact ⟨rfl, rfl, rfl⟩

/-- No deed begins or ends the callback of a pulled task, or is the pull of a loop. -/
theorem silent_deed (h : Deed law s t) :
    dispatched t.journal = dispatched s.journal ∧ concluded t.journal = concluded s.journal
      ∧ pulledIds t.journal = pulledIds s.journal := by
  cases h with
  | act a ha => exact silent_effect (effect_act a ha)
  | note o ho =>
    refine ⟨(dispatched_concat s.journal o).trans ?_, (concluded_concat s.journal o).trans ?_,
      (pulledIds_concat s.journal o).trans ?_⟩
    · rw [ho.silent.2]
      exact List.append_nil _
    · rw [ho.inconclusive]
      exact List.append_nil _
    · rw [ho.unbrought]
      exact List.append_nil _
  | poll => exact ⟨rfl, rfl, rfl⟩

theorem silent_deeds (h : Deeds law s t) :
    dispatched t.journal = dispatched s.journal ∧ concluded t.journal = concluded s.journal
      ∧ pulledIds t.journal = pulledIds s.journal := by
  induction h with
  | refl => exact ⟨rfl, rfl, rfl⟩
  | tail _ step ih =>
    obtain ⟨dispatches, ends, ids⟩ := silent_deed step
    exact ⟨dispatches.trans ih.1, ends.trans ih.2.1, ids.trans ih.2.2⟩

/-- A pulled task is dispatched once and ends once, and no loop pulls meanwhile. -/
theorem told_runTask (hs : s.Obeys law) (task : TaskId) {body : Body} (hb : Body.Obeys law body) :
    dispatched (s.runTask task body).1.journal = dispatched s.journal ++ [(task, body)]
      ∧ concluded (s.runTask task body).1.journal
        = concluded s.journal ++ [(task, (s.runTask task body).2)]
      ∧ pulledIds (s.runTask task body).1.journal = pulledIds s.journal := by
  let first : Station :=
    (s.beginTask task).note (.began (.task task) (some task) (some task) body)
  let ran : Station × Except TaskError Unit := runBody (some task) body first
  let last : Station := ran.1.note (.ended (.task task) ran.2)
  have running : Deeds law first ran.1 := deeds_runBody (some task) hb first
  have obeys : ran.1.Obeys law := obeys_deeds (s := first) hs running
  have settling : Deeds law last (last.settle (some task)).1 :=
    deeds_settle (some task) last obeys
  obtain ⟨dispatches, ends, ids⟩ := silent_deeds running
  obtain ⟨dispatches', ends', ids'⟩ := silent_deeds settling
  refine ⟨dispatches'.trans ((dispatched_concat ran.1.journal _).trans ?_),
    ends'.trans ((concluded_concat ran.1.journal _).trans ?_),
    ids'.trans ((pulledIds_concat ran.1.journal _).trans ?_)⟩
  · rw [dispatches]
    exact (List.append_nil _).trans (dispatched_concat s.journal _)
  · rw [ends]
    exact congrArg (· ++ _) ((concluded_concat s.journal _).trans (List.append_nil _))
  · rw [ids]
    exact (List.append_nil _).trans ((pulledIds_concat s.journal _).trans (List.append_nil _))

/-! ### Pulling and dispatching -/

theorem silent_pull (s : Station) :
    dispatched s.pull.1.journal = dispatched s.journal
      ∧ concluded s.pull.1.journal = concluded s.journal
      ∧ registered s.pull.1.journal = registered s.journal := by
  rcases View.journal_pull s with same | ⟨task, noted⟩
  · rw [same]
    exact ⟨rfl, rfl, rfl⟩
  · rw [noted, dispatched_concat, concluded_concat, registered_concat]
    exact ⟨List.append_nil _, List.append_nil _, List.append_nil _⟩

/-- Without faults a pull gives the first id out, and keeps the order. -/
theorem Orderly.pull (hs : Orderly base [] s) :
    s.pull.2 = .ok s.queue.head? ∧ s.pull.1.queue = s.queue.tail
      ∧ Orderly base s.queue.head?.toList s.pull.1 := by
  have pulled := Host.pull_cases hs.faultless.known hs.pulls
  have same := View.host_pull s
  have result : s.pull.2 = .ok s.queue.head? := same.1.trans pulled.1
  have queue : s.pull.1.queue = s.queue.tail := by
    refine same.2.trans (pulled.2.resolve_right fun repeated => ?_)
    have := hs.faultless.repeats
    omega
  have keeps := View.keeps_pull s
  refine ⟨result, queue, ⟨?_, ?_, ?_, ?_⟩⟩
  · rw [keeps.context]
    exact hs.faultless.later keeps.host.toLater
  · exact Nat.le_zero.mp (hs.pulls ▸ keeps.host.refusedPulls)
  · have before : s.Paired (View.heldBy ([] ++ ⟨.pullPending, .empty⟩ :: [])) := hs.paired
    have after := View.paired_pull hs.faultless.repeats before
    rw [result] at after
    cases hq : s.queue.head? with
    | none => rw [hq] at after; exact after
    | some task => rw [hq] at after; exact after
  · have backlog : s.pull.1.backlog s.queue = s.backlog s.queue :=
      backlog_congr fun task _ => by rw [View.worker_pull]
    obtain ⟨dispatches, -, registrations⟩ := silent_pull s
    have whole : s.queue.head?.toList ++ s.queue.tail = s.queue := by cases s.queue <;> rfl
    rw [queue, whole, backlog, dispatches, registrations]
    exact hs.order

/-- The first entry of the list is taken away as its callback begins. -/
theorem Orderly.take {task : TaskId} {body : Body} (hs : Orderly base [task] s)
    (callback : s.worker.registry.callback? task = some body) :
    Orderly base [] (((s.takeCallback task).2.beginTask task).note
      (.began (.task task) (some task) (some task) body)) := by
  have paired : s.Paired (View.heldBy ([] ++ ⟨.dispatching task, .empty⟩ :: [])) := hs.paired
  refine ⟨hs.faultless, hs.pulls, View.paired_take paired Registry.tasks_take rfl, ?_⟩
  have unqueued : ∀ key ∈ s.queue, key ≠ task := by
    rintro key hk rfl
    obtain ⟨-, -, apart⟩ := List.nodup_append.mp hs.paired.nodup
    exact apart key hk key List.mem_cons_self rfl
  have backlog : (s.takeCallback task).2.backlog s.queue = s.backlog s.queue :=
    backlog_congr fun key hk => (Registry.callback?_take key).trans (if_neg (unqueued key hk))
  have order := hs.order
  rw [backlog_append, backlog_singleton callback, ← List.append_assoc] at order
  show dispatched (s.journal ++ [_]) ++ (s.takeCallback task).2.backlog s.queue
    = base ++ registered (s.journal ++ [_])
  rw [dispatched_concat, registered_concat, backlog]
  exact order.trans (congrArg (base ++ ·) (List.append_nil _).symm)

/-- A pulled task runs in order; it is dispatched once and ends once. -/
theorem orderly_runTask (spares : ∀ c, law c → c.SparesQueue) (hs : s.Obeys law) {task : TaskId}
    {body : Body} (hb : Body.Obeys law body)
    (began : Orderly base [] ((s.beginTask task).note
      (.began (.task task) (some task) (some task) body))) :
    Orderly base [] (s.runTask task body).1
      ∧ dispatched (s.runTask task body).1.journal = dispatched s.journal ++ [(task, body)]
      ∧ concluded (s.runTask task body).1.journal
        = concluded s.journal ++ [(task, (s.runTask task body).2)] := by
  let first : Station :=
    (s.beginTask task).note (.began (.task task) (some task) (some task) body)
  let ran : Station × Except TaskError Unit := runBody (some task) body first
  let last : Station := ran.1.note (.ended (.task task) ran.2)
  have running : Deeds law first ran.1 := deeds_runBody (some task) hb first
  have obeys : ran.1.Obeys law := obeys_deeds (s := first) hs running
  have settling : Deeds law last (last.settle (some task)).1 :=
    deeds_settle (some task) last obeys
  have ended : Orderly base [] last := (orderly_deeds spares began running).note rfl rfl
  have settled := orderly_deeds spares ended settling
  obtain ⟨dispatches, ends, -⟩ := told_runTask hs task hb
  exact ⟨settled.same ⟨rfl, rfl, .refl _ _⟩ rfl rfl rfl rfl, dispatches, ends⟩

end Station

/-! ### Steps and runs of one loop -/

/-- Whether a report tells what the journal tells: which tasks ended well, which
failed, that no id was skipped, and that every dispatch came to an end. -/
structure DrainReport.Tells (r : DrainReport) (journal : List Occurrence) : Prop where
  executed : r.executed = succeeded (concluded journal)
  failed : r.failed = failures (concluded journal)
  skipped : r.skipped = []
  ends : (concluded journal).map Prod.fst = (dispatched journal).map Prod.fst

namespace DrainReport.Tells

variable {r : DrainReport} {journal journal' : List Occurrence} {task : TaskId} {body : Body}

theorem same (hr : r.Tells journal) (dispatches : dispatched journal' = dispatched journal)
    (ends : concluded journal' = concluded journal) : r.Tells journal' :=
  ⟨by rw [ends]; exact hr.executed, by rw [ends]; exact hr.failed, hr.skipped,
    by rw [ends, dispatches]; exact hr.ends⟩

theorem execute (hr : r.Tells journal)
    (dispatches : dispatched journal' = dispatched journal ++ [(task, body)])
    (ends : concluded journal' = concluded journal ++ [(task, .ok ())]) :
    (r.execute task).Tells journal' where
  executed := by simp [DrainReport.execute, ends, succeeded, hr.executed]
  failed := by simp [DrainReport.execute, ends, failures, hr.failed]
  skipped := hr.skipped
  ends := by simp [ends, dispatches, hr.ends]

theorem fail {e : TaskError} (hr : r.Tells journal)
    (dispatches : dispatched journal' = dispatched journal ++ [(task, body)])
    (ends : concluded journal' = concluded journal ++ [(task, .error e)]) :
    (r.fail task e).Tells journal' where
  executed := by simp [DrainReport.fail, ends, succeeded, hr.executed]
  failed := by simp [DrainReport.fail, ends, failures, hr.failed]
  skipped := hr.skipped
  ends := by simp [ends, dispatches, hr.ends]

end DrainReport.Tells

namespace DispatchLoop

variable {law : HostCall → Prop} {s : Station} {l : DispatchLoop} {base : List (TaskId × Body)}

/-- What a loop preserves that serves the list alone. -/
structure Fifo (law : HostCall → Prop) (base : List (TaskId × Body)) (l : DispatchLoop)
    (s : Station) : Prop where
  orderly : s.Orderly base l.state.held?.toList
  obeys : s.Obeys law
  report : l.report.Tells s.journal
  emptied : l.state = .drained → s.queue = []

/-- Dispatching the id that the loop holds. -/
theorem fifo_dispatch (spares : ∀ c, law c → c.SparesQueue) {report : DrainReport} {task : TaskId}
    (hl : Fifo law base ⟨.dispatching task, report⟩ s) :
    Fifo law base ((⟨.dispatching task, report⟩ : DispatchLoop).dispatch s task).1
      ((⟨.dispatching task, report⟩ : DispatchLoop).dispatch s task).2 := by
  have obeys := View.obeys_moves hl.obeys (View.moves_dispatch [] [] report hl.obeys task)
  have held : task ∈ s.worker.registry.tasks :=
    hl.orderly.paired.mem_iff.mpr (Or.inr List.mem_cons_self)
  have present := Registry.isSome_callback?_iff.mpr held
  obtain ⟨body, callback⟩ := Option.isSome_iff_exists.mp present
  have taken : s.takeCallback task = (some body, (s.takeCallback task).2) :=
    Prod.ext callback rfl
  obtain ⟨orderly, dispatches, ends⟩ := Station.orderly_runTask spares
    (fun b hb => hl.obeys b (View.bodies_takeCallback s task b hb))
    (View.obeys_callback hl.obeys callback) (hl.orderly.take callback)
  unfold dispatch at obeys ⊢
  rw [taken] at obeys ⊢
  cases ran : (s.takeCallback task).2.runTask task body with
  | mk t r =>
    simp only [ran] at obeys orderly dispatches ends ⊢
    cases r with
    | ok u => exact ⟨orderly, obeys, hl.report.execute dispatches ends, fun h => by cases h⟩
    | error e =>
      have logged : Station.Deeds law t (t.log (.taskFailed task e)) := Station.deeds_log t _
      obtain ⟨dispatches', ends', -⟩ := Station.silent_deeds logged
      exact ⟨Station.orderly_deeds spares orderly logged, obeys,
        (hl.report.fail dispatches ends).same dispatches' ends', fun h => by cases h⟩

/-- A step of the loop succeeds and goes on in order. -/
theorem fifo_step (spares : ∀ c, law c → c.SparesQueue) (hl : l.Fifo law base s) :
    (l.step s).2.2 = .ok () ∧ (l.step s).1.Fifo law base (l.step s).2.1 := by
  have obeys := View.obeys_moves hl.obeys (View.moves_step [] [] l hl.obeys)
  obtain ⟨state, report⟩ := l
  cases state with
  | idle =>
    have settling := Station.deeds_settle none s hl.obeys
    obtain ⟨dispatches, ends, -⟩ := Station.silent_deeds settling
    exact ⟨rfl, Station.orderly_deeds spares hl.orderly settling, obeys,
      hl.report.same dispatches ends, fun h => by cases h⟩
  | pullPending =>
    obtain ⟨result, queue, orderly⟩ := hl.orderly.pull
    obtain ⟨dispatches, ends, -⟩ := Station.silent_pull s
    have tells := hl.report.same dispatches ends
    unfold step at obeys ⊢
    cases hp : s.pull with
    | mk t r =>
      rw [hp] at result
      simp only [hp] at obeys queue orderly tells ⊢
      cases hq : s.queue with
      | nil =>
        rw [hq] at result queue orderly
        subst result
        have logged : Station.Deeds law t (t.log (.drainFinished report)) := Station.deeds_log t _
        obtain ⟨dispatches', ends', -⟩ := Station.silent_deeds logged
        have emptied := (Station.queue_log t (.drainFinished report)).trans queue
        exact ⟨rfl, Station.orderly_deeds spares orderly logged, obeys,
          tells.same dispatches' ends', fun _ => emptied⟩
      | cons task rest =>
        rw [hq] at result orderly
        subst result
        exact ⟨rfl, orderly, obeys, tells, fun h => by cases h⟩
  | dispatching task => exact ⟨rfl, fifo_dispatch spares hl⟩
  | drained => exact ⟨rfl, hl⟩

/-- A run ends well, with the loop drained in order. -/
theorem fifo_run (spares : ∀ c, law c → c.SparesQueue) (hl : l.Fifo law base s) :
    ∃ report, (l.run s).2 = .ok report ∧ Fifo law base ⟨.drained, report⟩ (l.run s).1 := by
  fun_induction run l s with
  | case1 l s hd =>
    obtain ⟨state, report⟩ := l
    obtain rfl : state = .drained := hd
    exact ⟨report, rfl, hl⟩
  | case2 l s hd k t e h =>
    have stepped := (fifo_step spares hl).1
    rw [h] at stepped
    cases stepped
  | case3 l s hd k t h ih =>
    have stepped := (fifo_step spares hl).2
    rw [h] at stepped
    exact ih stepped

end DispatchLoop

namespace Station

variable {s : Station}

/-- A drain is a first-in-first-out scheduler. On a host without faults, with
registry and queue holding the same ids, it dispatches the queued ids in queue
order, then whatever was registered since in the order of registration, each with
its own callback; it reports how each dispatch ended, and it leaves nothing. -/
theorem drain_serves_backlog (new : s.journal = []) (faultless : s.host.Faultless s.context)
    (pulls : s.host.outages.pulls = 0) (obeys : s.Obeys HostCall.SparesQueue)
    (distinct : s.Distinct) (same : ∀ task, task ∈ s.worker.registry.tasks ↔ task ∈ s.queue) :
    (s.backlog s.queue).map Prod.fst = s.queue
    ∧ dispatched s.drain.1.journal = s.backlog s.queue ++ registered s.drain.1.journal
    ∧ (concluded s.drain.1.journal).map Prod.fst = (dispatched s.drain.1.journal).map Prod.fst
    ∧ s.drain.2 = .ok ⟨succeeded (concluded s.drain.1.journal),
      failures (concluded s.drain.1.journal), []⟩
    ∧ s.drain.1.queue = [] ∧ s.drain.1.worker.registry.callbacks = [] := by
  have paired : s.Paired [] := by
    refine ⟨?_, ?_⟩
    · rw [List.append_nil]
      exact (List.perm_ext_iff_of_nodup distinct.tasks distinct.queue).mpr same
    · rw [List.append_nil]
      exact distinct.queue
  have order : dispatched s.journal ++ s.backlog ([] ++ s.queue)
      = s.backlog s.queue ++ registered s.journal := by
    rw [new]
    exact (List.append_nil _).symm
  have tells : DrainReport.empty.Tells s.journal := by
    rw [new]
    exact ⟨rfl, rfl, rfl, rfl⟩
  have start : DispatchLoop.Fifo HostCall.SparesQueue (s.backlog s.queue) .start s :=
    ⟨⟨faultless, pulls, paired, order⟩, obeys, tells, fun h => by cases h⟩
  obtain ⟨report, result, last⟩ := DispatchLoop.fifo_run (fun _ h => h) start
  have emptied : s.drain.1.queue = [] := last.emptied rfl
  have served := last.orderly.order
  refine ⟨map_fst_backlog fun task => (same task).mpr, ?_, last.report.ends, ?_, emptied, ?_⟩
  · rw [show (DispatchLoop.start.run s).1.queue = [] from emptied] at served
    exact (List.append_nil _).symm.trans served
  · obtain ⟨executed, failed, skipped⟩ := report
    refine result.trans (congrArg Except.ok ?_)
    rw [DrainReport.mk.injEq]
    exact ⟨last.report.executed, last.report.failed, last.report.skipped⟩
  · have left := last.orderly.paired.tasks
    rw [show (DispatchLoop.start.run s).1.queue = [] from emptied] at left
    exact List.map_eq_nil_iff.mp left.eq_nil

/-- A worker with one task, whose callback registers another one that fails. -/
def selfExtending : Station :=
  let begun : Station :=
    ⟨(Host.empty.makeContext ⟨"worker", none⟩).1, .ofHandle ⟨.spawned 0, none, "worker"⟩, []⟩
  { (begun.register ⟨"first"⟩ [.register ⟨"second"⟩ [.fail "no"]]).1 with journal := [] }

theorem obeys_selfExtending : selfExtending.Obeys HostCall.SparesQueue := by
  refine obeys_effect (t := (register _ _ _).1) (fun b hb => ?_) (effect_register ⟨"first"⟩ ?_)
  · cases hb
  · simp [Body.Obeys, Action.Obeys]

theorem drain_serves_backlog_selfExtending :
    selfExtending.queue = [⟨"first"⟩]
    ∧ (registered selfExtending.drain.1.journal).map Prod.fst = [⟨"second"⟩]
    ∧ (dispatched selfExtending.drain.1.journal).map Prod.fst = [⟨"first"⟩, ⟨"second"⟩]
    ∧ selfExtending.drain.1.queue = [] := by
  have queue : selfExtending.queue = [⟨"first"⟩] := by decide +kernel
  have tasks : selfExtending.worker.registry.tasks = [⟨"first"⟩] := by decide +kernel
  have faultless : selfExtending.host.Faultless selfExtending.context :=
    ⟨by decide +kernel, rfl, rfl, rfl⟩
  have distinct : selfExtending.Distinct := ⟨by rw [tasks]; decide, by rw [queue]; decide⟩
  have same : ∀ task, task ∈ selfExtending.worker.registry.tasks ↔ task ∈ selfExtending.queue := by
    rw [tasks, queue]
    exact fun _ => Iff.rfl
  obtain ⟨ids, served, -, -, emptied, -⟩ :=
    drain_serves_backlog rfl faultless rfl obeys_selfExtending distinct same
  have registrations : (registered selfExtending.drain.1.journal).map Prod.fst = [⟨"second"⟩] := by
    decide +kernel
  refine ⟨queue, registrations, ?_, emptied⟩
  rw [served, List.map_append, ids, queue, registrations]
  rfl

end Station
end TaskHost
