/-
# Repeated pulls are harmless

When a host repeats pulls, a drain does what it would do without the repeats, and skips
the first id that it dispatched once for each repeat. The id is not registered by then:
while its callback and its timers run it cannot be registered, since its task is running
(`Station.unregistered_runTask`). What the two drains leave differs by the skipped ids
only (`Station.drain_withRepeats`), and so it is in every session that has prepared a
drain (`Session.repeats_harmless`).

Key definitions: `Station.firstDispatched`, `Station.DiffersBy`,
`Session.Command.Prepares`.
Key theorems: `DispatchLoop.run_first`, `Station.drain_withRepeats`,
`Session.play_withRepeats`, `Session.repeats_harmless`.
-/
import TaskHost.Proofs.Echoes
import TaskHost.Proofs.Fifo
import TaskHost.Proofs.OwnContext

namespace TaskHost

/-! ### A running task stays unregistered -/

namespace Station

variable {law : HostCall → Prop} {s t : Station} {task : TaskId} {body : Body}

/-- Whether a task is running and not registered. -/
structure Occupied (task : TaskId) (s : Station) : Prop where
  running : s.worker.registry.running = some task
  absent : s.worker.registry.callback? task = none

theorem occupied_effect (hs : s.Occupied task) (h : Effect law s t) : t.Occupied task := by
  cases h with
  | registered key body h fresh accepted obeys =>
    obtain ⟨absent, other⟩ := Registry.refusal?_eq_none_iff.mp fresh
    have apart : task ≠ key := fun e => other (e ▸ hs.running)
    refine ⟨hs.running, ?_⟩
    show (s.worker.registry.add key body).callback? task = none
    rw [Registry.callback?_add (Registry.callback?_eq_none_iff.mpr absent), if_neg apart]
    exact hs.absent
  | _ => exact ⟨hs.running, hs.absent⟩

theorem occupied_deeds (hs : s.Occupied task) (h : Deeds law s t) : t.Occupied task := by
  induction h with
  | refl => exact hs
  | tail _ step ih =>
    cases step with
    | act a ha => exact occupied_effect ih (effect_act a ha)
    | note o ho => exact ⟨ih.running, ih.absent⟩
    | poll => exact ⟨ih.running, ih.absent⟩

/-- When a task has run it is not registered, whatever its callback and its timers did. -/
theorem unregistered_runTask (hs : s.Obeys law) (hb : Body.Obeys law body)
    (absent : s.worker.registry.callback? task = none) :
    (s.runTask task body).1.worker.registry.callback? task = none := by
  let first : Station :=
    (s.beginTask task).note (.began (.task task) (some task) (some task) body)
  let ran : Station × Except TaskError Unit := runBody (some task) body first
  let last : Station := ran.1.note (.ended (.task task) ran.2)
  have running : Deeds law first ran.1 := deeds_runBody (some task) hb first
  have obeys : ran.1.Obeys law := obeys_deeds (s := first) hs running
  have settling : Deeds law last (last.settle (some task)).1 := deeds_settle (some task) last obeys
  have begun : first.Occupied task := ⟨rfl, absent⟩
  have ended := occupied_deeds begun running
  have noted : last.Occupied task := ⟨ended.running, ended.absent⟩
  exact (occupied_deeds noted settling).absent

end Station

/-! ### A worker's log keeps its source and its threshold -/

/-- A log without its entries. -/
def Logger.cleared (l : Logger) : Logger := { l with entries := [] }

namespace Station

variable {law : HostCall → Prop} {s t : Station}

theorem cleared_log (s : Station) (e : LogEntry) :
    (s.log e).worker.logger.cleared = s.worker.logger.cleared := by
  rw [log_eq]
  rfl

theorem cleared_register (s : Station) (task : TaskId) (body : Body) :
    (s.register task body).1.worker.logger = s.worker.logger := by
  unfold register
  split <;> rfl

theorem cleared_act (s : Station) :
    ∀ a : Action, (s.act a).1.worker.logger.cleared = s.worker.logger.cleared
  | .log e => cleared_log s e
  | .attempt a => cleared_act s a
  | .register task body => congrArg Logger.cleared (cleared_register s task body)
  | .call _ | .mark _ | .who | .setTimeout _ _ | .console _ _ | .pause _ | .fail _ => rfl

theorem cleared_deed (h : Deed law s t) : t.worker.logger.cleared = s.worker.logger.cleared := by
  cases h with
  | act a ha => exact cleared_act s a
  | note o ho => rfl
  | poll => rfl

end Station

theorem View.cleared_moves {law : HostCall → Prop} {v w : View} (h : View.Moves law v w) :
    w.station.worker.logger.cleared = v.station.worker.logger.cleared := by
  induction h with
  | refl => rfl
  | tail _ step ih =>
    refine Eq.trans ?_ ih
    cases step with
    | deed loops h => exact Station.cleared_deed h
    | pull pre post report s => rw [View.worker_pull]
    | _ => rfl

/-! ### Drains with and without repeats -/

namespace DispatchLoop

variable {law : HostCall → Prop} {l : DispatchLoop} {s t : Station} {task : TaskId}
  {base : List (TaskId × Body)} {report : DrainReport}

/-- When an id has been dispatched it is not registered. -/
theorem unregistered_dispatch (l : DispatchLoop) (hs : s.Obeys law) (task : TaskId) :
    (l.dispatch s task).2.worker.registry.callback? task = none := by
  cases callback : s.worker.registry.callback? task with
  | none =>
    have skipped := dispatch_unregistered (r := l.report) callback
    have same : (l.dispatch s task).2 = s.log (.taskSkipped task) := congrArg Prod.snd skipped
    rw [same]
    exact callback
  | some body =>
    have absent : (s.takeCallback task).2.worker.registry.callback? task = none :=
      (Registry.callback?_take task).trans (if_pos rfl)
    have left := Station.unregistered_runTask
      (fun b hb => hs b (View.bodies_takeCallback s task b hb))
      (View.obeys_callback hs callback) absent
    rw [(dispatch_leaves callback).1]
    exact left

/-- A loop in order dispatches the id that it holds. -/
theorem dispatched_dispatch (spares : ∀ c, law c → c.SparesQueue)
    (hl : Fifo law base ⟨.dispatching task, report⟩ s) : ∃ body,
    dispatched (dispatch ⟨.dispatching task, report⟩ s task).2.journal
      = dispatched s.journal ++ [(task, body)] := by
  have held : task ∈ s.worker.registry.tasks :=
    hl.orderly.paired.mem_iff.mpr (Or.inr List.mem_cons_self)
  obtain ⟨body, callback⟩ := Option.isSome_iff_exists.mp (Registry.isSome_callback?_iff.mpr held)
  obtain ⟨-, dispatches, -⟩ := Station.orderly_runTask spares
    (fun b hb => hl.obeys b (View.bodies_takeCallback s task b hb))
    (View.obeys_callback hl.obeys callback) (hl.orderly.take callback)
  refine ⟨body, ?_⟩
  rw [(dispatch_leaves callback).2]
  exact dispatches

theorem Fifo.plain (hl : l.Fifo HostCall.SparesQueue base s) : s.Plain :=
  ⟨hl.orderly.faultless.known, hl.orderly.pulls, hl.orderly.faultless.repeats, hl.obeys⟩

/-- A run in order whose first pull brings an id, whatever repeats are planned. -/
theorem run_first {rest : List TaskId}
    (hl : Fifo HostCall.SparesQueue base ⟨.pullPending, .empty⟩ s)
    (new : dispatched s.journal = []) (queue : s.queue = task :: rest) :
    ∃ (t u : Station) (report : DrainReport), (dispatched t.journal).map Prod.fst = [task]
      ∧ u.worker.logger.cleared = t.worker.logger.cleared
      ∧ ∀ k, run ⟨.pullPending, .empty⟩ (s.withRepeats k)
        = ((u.log (.drainFinished (report.past (List.replicate k task)))).veil
            (t.past (List.replicate k task)), .ok (report.past (List.replicate k task))) := by
  obtain ⟨b, plain, -, -, stale⟩ := Station.exists_veil_of_queue hl.plain queue
  let pulled : Station := b.note (.pulled (some task))
  have pull : s.pull = (pulled, .ok (some task)) := by
    have taken : (b.veil (.echo 0 [task])).pull = _ := Station.pull_echo_zero plain
    rw [← stale, Station.withRepeats_self hl.plain] at taken
    exact taken
  have held : Fifo HostCall.SparesQueue base ⟨.dispatching task, .empty⟩ pulled := by
    have stepped := (fifo_step (fun _ h => h) hl).2
    simp only [step, pull] at stepped
    exact stepped
  have journal : dispatched pulled.journal = [] := by
    have silent := (Station.silent_pull s).1
    rw [pull] at silent
    exact silent.trans new
  cases served : dispatch ⟨.dispatching task, .empty⟩ pulled task with
  | mk l t =>
    obtain ⟨body, dispatches⟩ := dispatched_dispatch (fun _ h => h) held
    have unregistered := unregistered_dispatch ⟨.dispatching task, .empty⟩ held.obeys task
    have goesOn := fifo_dispatch (fun _ h => h) held
    rw [served] at dispatches unregistered goesOn
    have pending : l.state = .pullPending := by
      have state := state_dispatch ⟨.dispatching task, .empty⟩ pulled task
      rw [served] at state
      exact state
    have plain' := Station.plain_bare goesOn.plain
    have undrained : l.state ≠ .drained := by
      rw [pending]
      exact fun h => by cases h
    obtain ⟨u, report, runs⟩ := run_veil plain' undrained
    refine ⟨t, u, report, ?_, ?_, fun k => ?_⟩
    · rw [dispatches, journal]
      rfl
    · have ran := runs (t.past []) ⟨rfl, rfl⟩ []
      have obeys : (t.bare.veil (t.past [])).Obeys HostCall.SparesQueue := plain'.obeys
      obtain ⟨_, -, moved, -⟩ := View.moves_run [] [] (l.past []) obeys
      have same := View.cleared_moves moved
      rw [ran] at same
      exact (Station.cleared_log u (.drainFinished (report.past []))).symm.trans same
    · rw [stale, run_repeated plain .empty served unregistered k, Station.skips_eq goesOn.plain,
        ← runs _ ⟨rfl, rfl⟩]
      have skipped : l.report.skipped = [] := goesOn.report.skipped
      rw [past, DrainReport.past, pending, skipped, List.append_nil, List.nil_append]

end DispatchLoop

namespace Station

variable {s t : Station} {base : List (TaskId × Body)}

/-- The first id that a journal tells to have been dispatched, a number of times. -/
def firstDispatched (k : Nat) (journal : List Occurrence) : List TaskId :=
  ((dispatched journal).head?.map fun d => List.replicate k d.1).getD []

theorem firstDispatched_nil {journal : List Occurrence} (none : dispatched journal = []) (k : Nat) :
    firstDispatched k journal = [] := by
  rw [firstDispatched, none]
  rfl

theorem firstDispatched_append {before : List Occurrence} {task : TaskId}
    (first : (dispatched before).map Prod.fst = [task]) (k : Nat) (after : List Occurrence) :
    firstDispatched k (before ++ after) = List.replicate k task := by
  obtain ⟨d, single, rfl⟩ := List.map_eq_singleton_iff.mp first
  have whole : dispatched (before ++ after) = d :: dispatched after := by
    rw [dispatched, List.filterMap_append]
    exact congrArg (· ++ dispatched after) single
  rw [firstDispatched, whole]
  rfl

/-- How what a drain leaves differs when it has skipped some ids besides: by the pulls of
these ids and the entries about them, after the first dispatch, and by the number of
skipped ids in the last entry. Everything else is the same, in the same order. -/
structure DiffersBy (skipped : List TaskId) (report : DrainReport) (s t : Station) : Prop where
  host : t.host = { s.host with
    output := t.host.output
    faults := { s.host.faults with repeatPulls := t.host.faults.repeatPulls } }
  worker : t.worker = { s.worker with
    logger := { s.worker.logger with entries := t.worker.logger.entries } }
  journal : ∃ before after, s.journal = before ++ after
    ∧ t.journal = before ++ skipped.map (fun task => .pulled (some task)) ++ after
    ∧ ∀ task ∈ skipped, (dispatched before).map Prod.fst = [task]
  entries : ∃ before after,
    let passedOver := LogEntry.passedOver s.worker.logger.source
    let finished := LogEntry.finished s.worker.logger.source report.executed.length
      report.failed.length
    s.worker.logger.entries = before ++ after ++ [finished 0]
    ∧ t.worker.logger.entries
      = before ++ skipped.map passedOver ++ after ++ [finished skipped.length]
  output : ∃ before after,
    let passedOver task := s.worker.logger.prints (.passedOver s.worker.logger.source task)
    let finished skipped := s.worker.logger.prints (.finished s.worker.logger.source
      report.executed.length report.failed.length skipped)
    s.host.output = before ++ after ++ finished 0
    ∧ t.host.output = before ++ skipped.flatMap passedOver ++ after ++ finished skipped.length

/-- The drain begins with settling, whatever repeats are planned. -/
theorem drain_withRepeats_eq (hs : s.Obeys HostCall.SparesQueue) (k : Nat) :
    (s.withRepeats k).drain
      = DispatchLoop.run ⟨.pullPending, .empty⟩ ((s.settle none).1.withRepeats k) := by
  have fits : Fits (.echo k []) s := fun task stale => by cases stale
  have settled := settle_veil none hs fits
  rw [veil_echo_nil, veil_echo_nil] at settled
  have stepped : DispatchLoop.start.step (s.withRepeats k)
      = (⟨.pullPending, .empty⟩, (s.settle none).1.withRepeats k, .ok ()) :=
    congrArg (fun p => ((⟨.pullPending, .empty⟩ : DispatchLoop), p.1, Except.ok ())) settled
  exact DispatchLoop.run_step (fun h => by cases h) stepped

theorem journal_veil_past (s t : Station) : (t.veil (s.past [])).journal = s.journal ++ t.journal :=
  congrArg (· ++ t.journal) (List.append_nil s.journal)

/-- What a run leaves, with and without skipped ids in the past. -/
theorem differsBy_veil {report : DrainReport} {skipped : List TaskId}
    (unskipped : report.skipped = [])
    (voice : t.worker.logger.cleared = s.worker.logger.cleared)
    (first : ∀ task ∈ skipped, (dispatched s.journal).map Prod.fst = [task]) :
    DiffersBy skipped report ((t.log (.drainFinished report)).veil (s.past []))
      ((t.log (.drainFinished { report with skipped := skipped })).veil (s.past skipped)) := by
  obtain ⟨executed, failed, _⟩ := report
  obtain rfl := unskipped
  have attributed : ∀ e, s.worker.logger.attributed e = t.worker.logger.attributed e := by
    have same := congrArg Logger.attributed voice.symm
    exact congrFun same
  have own : ∀ e, t.worker.logger.prints e = t.worker.logger.prints (t.worker.logger.attributed e) :=
    fun e => (t.worker.logger.prints_attributed e).symm
  have prints : ∀ e, s.worker.logger.prints e
      = t.worker.logger.prints (t.worker.logger.attributed e) := by
    have same := congrArg Logger.prints voice.symm
    exact fun e => (congrFun same e).trans (own e)
  rw [log_eq, log_eq]
  refine ⟨?_, rfl, ⟨s.journal, t.journal, ?_, rfl, first⟩,
    ⟨s.worker.logger.entries, t.worker.logger.entries, ?_, ?_⟩,
    ⟨s.host.output, t.host.output, ?_, ?_⟩⟩
  · simp only [veil, past, Host.veil, Context.allBehind_nil]
  · exact journal_veil_past s t
  · show s.worker.logger.entries ++ [] ++ (t.worker.logger.entries ++ _) = _
    rw [List.append_nil, List.append_assoc]
    rfl
  · show s.worker.logger.entries ++ _ ++ (t.worker.logger.entries ++ _) = _
    simp only [attributed, Logger.attributed_taskSkipped, ← List.append_assoc]
    rfl
  · show s.host.output ++ [] ++ (t.host.output ++ _) = _
    rw [List.append_nil, List.append_assoc, own, Logger.attributed_drainFinished]
    rfl
  · show s.host.output ++ _ ++ (t.host.output ++ t.worker.logger.prints _) = _
    rw [own, Logger.attributed_drainFinished]
    simp only [prints, Logger.attributed_taskSkipped, ← List.append_assoc]
    rfl

/-- A drain that pulls no id. -/
theorem differsBy_withRepeats (k : Nat) (s : Station) :
    DiffersBy [] .empty (s.log (.drainFinished .empty))
      ((s.withRepeats k).log (.drainFinished .empty)) := by
  have logged : ∀ t : Station, (t.log (.drainFinished .empty)).worker.logger.entries
      = t.worker.logger.entries ++ [] ++ [.finished t.worker.logger.source 0 0 0] := by
    intro t
    rw [log_eq, List.append_nil]
    rfl
  have printed : ∀ t : Station, (t.log (.drainFinished .empty)).host.output
      = t.host.output ++ [] ++ t.worker.logger.prints (.finished t.worker.logger.source 0 0 0) := by
    intro t
    rw [log_eq, List.append_nil, ← t.worker.logger.prints_attributed]
    rfl
  refine ⟨?_, ?_, ⟨s.journal, [], (List.append_nil _).symm, ?_, fun _ h => by cases h⟩,
    ⟨s.worker.logger.entries, [], logged s, ?_⟩, ⟨s.host.output, [], printed s, ?_⟩⟩
  · rw [log_eq, log_eq]
    rfl
  · rw [log_eq, log_eq]
    rfl
  · exact ((List.append_nil _).trans (List.append_nil _)).symm
  · rw [List.map_nil, List.append_nil]
    exact logged (s.withRepeats k)
  · rw [List.flatMap_nil, List.append_nil]
    exact printed (s.withRepeats k)

/-- A drain with repeated pulls does what the drain without them does; it skips the first
id that it dispatched once for each repeat. -/
theorem drain_withRepeats (new : s.journal = [])
    (fifo : DispatchLoop.Fifo HostCall.SparesQueue base .start s) (k : Nat) :
    ∃ report, s.drain.2 = .ok report ∧ report.skipped = []
      ∧ (s.withRepeats k).drain.2
        = .ok { report with skipped := firstDispatched k s.drain.1.journal }
      ∧ DiffersBy (firstDispatched k s.drain.1.journal) report s.drain.1
        (s.withRepeats k).drain.1 := by
  let settled : Station := (s.settle none).1
  have fifo' : DispatchLoop.Fifo HostCall.SparesQueue base ⟨.pullPending, .empty⟩ settled :=
    (DispatchLoop.fifo_step (fun _ h => h) fifo).2
  have silent : dispatched settled.journal = [] := by
    rw [(silent_deeds (deeds_settle none s fifo.obeys)).1, new]
    rfl
  have drains : ∀ k, (s.withRepeats k).drain
      = DispatchLoop.run ⟨.pullPending, .empty⟩ (settled.withRepeats k) :=
    drain_withRepeats_eq fifo.obeys
  have unfaulted : s.drain = DispatchLoop.run ⟨.pullPending, .empty⟩ (settled.withRepeats 0) := by
    rw [← drains, withRepeats_self fifo.plain]
  rw [unfaulted, drains k]
  cases queue : settled.queue with
  | nil =>
    let dry : Station := settled.note (.pulled none)
    have runs : ∀ k, DispatchLoop.run ⟨.pullPending, .empty⟩ (settled.withRepeats k)
        = ((dry.withRepeats (k - 1)).log (.drainFinished .empty), .ok .empty) :=
      fun k => DispatchLoop.run_dry (pull_withRepeats_nil fifo'.plain queue)
    have plain : dry.Plain :=
      ⟨fifo'.plain.known, fifo'.plain.pulls, fifo'.plain.repeats, fifo'.obeys⟩
    have undispatched : dispatched (dry.log (.drainFinished .empty)).journal = [] :=
      (dispatched_concat settled.journal _).trans ((List.append_nil _).trans silent)
    rw [runs 0, runs k, Nat.zero_sub, withRepeats_self plain, firstDispatched_nil undispatched]
    exact ⟨.empty, rfl, rfl, rfl, differsBy_withRepeats (k - 1) dry⟩
  | cons task rest =>
    obtain ⟨t, u, report, first, voice, runs⟩ := DispatchLoop.run_first fifo' silent queue
    obtain ⟨whole, ended, last⟩ := DispatchLoop.fifo_run (fun _ h => h) fifo'
    have unskipped : report.skipped = [] := by
      rw [← withRepeats_self fifo'.plain, runs 0] at ended
      have same : report.past [] = whole := Except.ok.inj ended
      have skipped := last.report.skipped
      rw [← same] at skipped
      exact skipped
    have skips : ∀ skipped, report.past skipped = { report with skipped := skipped } :=
      fun skipped => by rw [DrainReport.past, unskipped, List.append_nil]
    have plainly : report.past [] = report := rfl
    have copies : firstDispatched k
        ((u.log (.drainFinished report)).veil (t.past [])).journal = List.replicate k task := by
      rw [journal_veil_past]
      exact firstDispatched_append first k u.journal
    rw [runs 0, runs k, List.replicate_zero, plainly, copies, skips]
    refine ⟨report, rfl, unskipped, rfl, differsBy_veil unskipped voice fun key hk => ?_⟩
    rw [List.eq_of_mem_replicate hk]
    exact first

end Station

namespace Session

/-! ### Sessions up to the first drain -/

/-- Callbacks and calls that neither push nor pull; no loop is stepped, and no context
adopted. -/
def setup : Law := ⟨fun _ c => c.SparesQueue, fun _ _ => False, fun _ => False⟩

/-- Whether a command only prepares a drain. -/
structure Command.Prepares (c : Command) : Prop where
  obeys : c.Obeys setup
  first : ∀ w, c ≠ .drain w

/-- The session with repeated pulls to come. -/
def withRepeats (k : Nat) (s : Session) : Session := { s with host := s.host.withRepeats k }

variable {k w : Nat} {h : Host} {s : Session} {worker : Worker} {commands : List Command}

/-- A worker acts in the same way whatever repeats are planned. -/
theorem byWorker_withRepeats {act : Station → Station × Reply}
    (acts : ∀ worker, s.workers[w]? = some worker →
      act (Station.withRepeats k ⟨s.host, worker, []⟩)
        = ((act ⟨s.host, worker, []⟩).1.withRepeats k, (act ⟨s.host, worker, []⟩).2)) :
    (s.withRepeats k).byWorker w act
      = ((s.byWorker w act).1.withRepeats k, (s.byWorker w act).2) := by
  have workers : (s.withRepeats k).workers = s.workers := rfl
  unfold byWorker atStation
  rw [workers]
  cases member : s.workers[w]? with
  | none => rfl
  | some worker =>
    have acted : act ⟨(s.withRepeats k).host, worker, []⟩ = _ := acts worker member
    simp only [acted]
    rfl

theorem exec_withRepeats (lawful : Lawful setup s) {c : Command} (prepares : c.Prepares) :
    (s.withRepeats k).exec c = ((s.exec c).1.withRepeats k, (s.exec c).2) := by
  have fits : ∀ t : Station, Station.Fits (.echo k []) t := fun t task stale => by cases stale
  have plain : ∀ t : Station, t.withRepeats k = t.veil (.echo k []) :=
    fun t => Station.veil_echo_nil.symm
  cases c with
  | spawn d threshold =>
    by_cases refused : 0 < s.host.outages.spawns
    · have refused' : 0 < (s.withRepeats k).host.outages.spawns := refused
      simp only [exec, Host.spawn, if_pos refused, if_pos refused']
      rfl
    · have open' : ¬ 0 < (s.withRepeats k).host.outages.spawns := refused
      simp only [exec, Host.spawn, if_neg refused, if_neg open']
      rfl
  | adopt handle threshold => exact prepares.obeys.elim
  | register i task body =>
    rw [exec_register, exec_register]
    refine byWorker_withRepeats fun worker member => ?_
    simp only [plain, Station.register_veil (fits _)]
  | setTimeout i delay body =>
    refine byWorker_withRepeats fun worker member => ?_
    simp only [plain, Station.setTimeout_veil]
  | settle i origin =>
    refine byWorker_withRepeats fun worker member => ?_
    simp only [plain, Station.settle_veil origin (lawful i worker member) (fits _)]
  | drain i => exact absurd rfl (prepares.first i)
  | console i stream args =>
    refine byWorker_withRepeats fun worker member => ?_
    simp only [plain, Station.consoleWrite_veil]
  | call i c =>
    rw [exec_call, exec_call]
    refine byWorker_withRepeats fun worker member => ?_
    simp only [plain, Station.call_veil prepares.obeys]
  | entries i => exact byWorker_withRepeats fun worker member => rfl
  | registry i task => exact byWorker_withRepeats fun worker member => rfl
  | queue i => exact byWorker_withRepeats fun worker member => rfl
  | newLoop => rfl
  | stepLoop l i => exact prepares.obeys.elim
  | runLoop l i => exact prepares.obeys.elim
  | showLoop l =>
    have loops : (s.withRepeats k).loops = s.loops := rfl
    simp only [exec, loops]
    split <;> rfl
  | advance d => rfl
  | drive =>
    have driven : (s.host.veil (.echo k []) (.spawned 0)).drive = _ := Host.drive_veil
    rw [Host.veil_echo_nil, Host.veil_echo_nil] at driven
    exact congrArg (fun p => ({ s with host := p.1 }, Reply.flag p.2)) driven
  | print line isError => rfl
  | timers => rfl
  | contexts => rfl
  | file path => rfl
  | lines isError => rfl
  | start op =>
    cases op with
    | timer delay =>
      have set : (s.host.veil (.echo k []) (.spawned 0)).setTimeout delay = _ :=
        Host.setTimeout_veil delay
      rw [Host.veil_echo_nil, Host.veil_echo_nil] at set
      exact congrArg (fun p => { s with host := p.1 }.addSlot (.ofSignal p.2)) set
    | read path => rfl
    | write path contents => rfl
    | fetch url => rfl
  | slot i =>
    have slots : (s.withRepeats k).slots = s.slots := rfl
    simp only [exec, slots]
    split <;> rfl
  | take i =>
    have slots : (s.withRepeats k).slots = s.slots := rfl
    simp only [exec, slots]
    split <;> rfl

/-- Preparations do the same whatever repeats are planned. -/
theorem play_withRepeats (h : Host) (prepares : ∀ c ∈ commands, c.Prepares) :
    (ofHost (h.withRepeats k)).play commands = ((ofHost h).play commands).withRepeats k := by
  induction commands using List.reverseRecOn with
  | nil => rfl
  | append_singleton commands c ih =>
    have before : ∀ d ∈ commands, d.Prepares := fun d hd => prepares d (List.mem_append_left _ hd)
    have last := prepares c (List.mem_append_right _ List.mem_cons_self)
    have owns : ∀ l i, setup.steps l i → id l = i := fun _ _ steps => steps.elim
    have lawful := (sound_play owns h fun d hd => (before d hd).obeys).1.lawful
    rw [play_concat, play_concat, ih before, exec_withRepeats lawful last]

/-- A worker whose drain has been prepared on a host without faults serves its list in
order. -/
theorem fifo_play (repeats : h.faults.repeatPulls = 0)
    (drops : h.faults.droppedRegistrations = 0) (pulls : h.outages.pulls = 0)
    (registrations : h.outages.registrations = 0) (prepares : ∀ c ∈ commands, c.Prepares)
    (member : ((ofHost h).play commands).workers[w]? = some worker) :
    let s : Station := ⟨((ofHost h).play commands).host, worker, []⟩
    DispatchLoop.Fifo HostCall.SparesQueue (s.backlog s.queue) .start s := by
  intro s
  -- no loop belongs to the worker
  have others : ∀ l i, setup.steps l i → (fun _ => w + 1) l = i := fun _ _ steps => steps.elim
  obtain ⟨v, fresh, later, -, path, -⟩ :=
    path_play others (fun c hc => (prepares c hc).obeys) member (fun _ h => h.elim)
  have faultless : v.station.host.Faultless v.station.context :=
    { known := fresh.known
      repeats := Nat.le_zero.mp (repeats ▸ later.repeats)
      drops := Nat.le_zero.mp (drops ▸ later.drops)
      registrations := Nat.le_zero.mp (registrations ▸ later.refusedRegistrations) }
  have spares : ∀ c, setup.calls w c → c.SparesQueue := fun _ h => h
  have lockstep := View.lockstep_path spares (fresh.lockstep faultless) path
  have obeys : s.Obeys HostCall.SparesQueue := obeys_congr rfl (View.obeys_path fresh.obeys path)
  have free : loopsOf (fun _ => w + 1) w 0 ((ofHost h).play commands).loops = [] := by
    refine List.eq_nil_iff_forall_not_mem.mpr fun l hl => ?_
    obtain ⟨i, -, own⟩ := mem_loopsOf hl
    omega
  have paired : s.Paired
      (View.heldBy (loopsOf (fun _ => w + 1) w 0 ((ofHost h).play commands).loops)) :=
    (lockstep.of_journal []).paired
  have pulls' : s.host.outages.pulls = 0 := by
    have later := (sound_play others h fun c hc => (prepares c hc).obeys).2
    exact Nat.le_zero.mp (pulls ▸ later.refusedPulls)
  rw [free] at paired
  have order := (List.append_nil (s.backlog s.queue)).symm
  exact ⟨⟨lockstep.faultless, pulls', paired, order⟩, obeys, ⟨rfl, rfl, rfl, rfl⟩,
    fun h => by cases h⟩

/-- Repeated pulls are harmless. A worker that is prepared in any way on a host without
other faults drains with `k` repeated pulls as it does without them: the callbacks run in
the same way, in the same order and with the same effects, and the reports tell of the
same executions and failures; but the first id that is dispatched, if any, is skipped `k`
times, which is noted, logged and counted. -/
theorem repeats_harmless (repeats : h.faults.repeatPulls = 0)
    (drops : h.faults.droppedRegistrations = 0) (pulls : h.outages.pulls = 0)
    (registrations : h.outages.registrations = 0) (prepares : ∀ c ∈ commands, c.Prepares)
    (member : ((ofHost h).play commands).workers[w]? = some worker) (k : Nat) :
    let clean := (ofHost h).play commands
    let faulty := (ofHost (h.withRepeats k)).play commands
    let drained := Station.drain ⟨clean.host, worker, []⟩
    let drained' := Station.drain ⟨faulty.host, worker, []⟩
    let skipped := Station.firstDispatched k drained.1.journal
    faulty = clean.withRepeats k
    ∧ ∃ report, drained.2 = .ok report ∧ report.skipped = []
      ∧ drained'.2 = .ok { report with skipped := skipped }
      ∧ Station.DiffersBy skipped report drained.1 drained'.1 := by
  intro clean faulty drained drained' skipped
  have same : faulty = clean.withRepeats k := play_withRepeats h prepares
  have fifo := fifo_play repeats drops pulls registrations prepares member
  refine ⟨same, ?_⟩
  simp only [drained', same]
  exact Station.drain_withRepeats rfl fifo k

/-- A worker whose first task registers another one; its log prints debug entries. -/
def preparedPair : List Command :=
  [.spawn ⟨"worker", none⟩ (some .debug), .register 0 ⟨"first"⟩ [.register ⟨"second"⟩ []],
    .settle 0 none]

theorem prepares_preparedPair : ∀ c ∈ preparedPair, c.Prepares := by
  intro c hc
  simp only [preparedPair, List.mem_cons, List.not_mem_nil, or_false] at hc
  rcases hc with rfl | rfl | rfl
  · exact ⟨trivial, fun w h => by cases h⟩
  · exact ⟨by simp [Command.Obeys, Body.Obeys, Action.Obeys], fun w h => by cases h⟩
  · exact ⟨trivial, fun w h => by cases h⟩

/-- With two repeated pulls the first id is skipped twice, and the log tells so. -/
theorem repeats_harmless_preparedPair :
    ∃ (worker : Worker) (report : DrainReport),
      ((ofHost .empty).play preparedPair).workers[0]? = some worker
      ∧ report.executed = [⟨"first"⟩, ⟨"second"⟩]
      ∧ let faulty := (ofHost (Host.empty.withRepeats 2)).play preparedPair
        let drained := Station.drain ⟨faulty.host, worker, []⟩
        drained.2 = .ok { report with skipped := [⟨"first"⟩, ⟨"first"⟩] }
        ∧ drained.1.worker.logger.entries
          = [⟨.debug, none, "pulled task has no callback", [("task", "first")]⟩,
            ⟨.debug, none, "pulled task has no callback", [("task", "first")]⟩,
            ⟨.info, none, "drain finished",
              [("executed", "2"), ("failed", "0"), ("skipped", "2")]⟩] := by
  let clean := (ofHost .empty).play preparedPair
  have present : clean.workers[0]?.isSome := by decide +kernel
  obtain ⟨worker, member⟩ := Option.isSome_iff_exists.mp present
  let drained := Station.drain ⟨clean.host, worker, []⟩
  have facts : clean.workers[0]?.map (fun worker =>
      let drained := Station.drain ⟨clean.host, worker, []⟩
      (Station.firstDispatched 2 drained.1.journal, drained.2,
        drained.1.worker.logger.entries.length, drained.1.worker.logger.source))
      = some ([⟨"first"⟩, ⟨"first"⟩], .ok ⟨[⟨"first"⟩, ⟨"second"⟩], [], []⟩, 1, none) := by
    decide +kernel
  rw [member] at facts
  obtain ⟨copies, result, single, source⟩ :
      Station.firstDispatched 2 drained.1.journal = _ ∧ drained.2 = _
        ∧ drained.1.worker.logger.entries.length = 1 ∧ drained.1.worker.logger.source = none := by
    simpa only [Option.map_some, Option.some.injEq, Prod.mk.injEq] using facts
  obtain ⟨-, report, ended, -, repeated, differs⟩ :=
    repeats_harmless rfl rfl rfl rfl prepares_preparedPair member 2
  obtain rfl : report = _ := Except.ok.inj (ended.symm.trans result)
  rw [copies] at repeated differs
  obtain ⟨before, after, whole, entries⟩ := differs.entries
  have alone : before = [] ∧ after = [] := by
    have length := single.symm.trans (congrArg List.length whole)
    simp only [List.length_append, List.length_singleton] at length
    exact ⟨List.length_eq_zero_iff.mp (by omega), List.length_eq_zero_iff.mp (by omega)⟩
  obtain ⟨rfl, rfl⟩ := alone
  rw [source] at entries
  exact ⟨worker, _, member, rfl, repeated, entries⟩

end Session

end TaskHost
