/-
# Stale ids

A host that repeats a pull gives an id out and keeps it at the head of the queue. The
id is then hidden from the worker as by a veil: its callback runs as if the id were gone
(`DispatchLoop.dispatch_veil`), and each further pull of the id is skipped
(`DispatchLoop.run_stale`), until one takes it away. From then on the loop goes on as
without the repeats, but for what it has skipped (`DispatchLoop.run_veil`).

Key definitions: `Host.withRepeats`, `Veil.echo`, `LogEntry.finished`,
`LogEntry.passedOver`, `Station.Plain`, `Station.skips`, `Station.past`.
Key theorems: `DispatchLoop.dispatch_veil`, `DispatchLoop.run_veil`,
`DispatchLoop.run_stale`, `DispatchLoop.run_repeated`.
-/
import TaskHost.Proofs.Runs
import TaskHost.Proofs.Veils

namespace TaskHost

/-- The host with repeated pulls to come. -/
def Host.withRepeats (k : Nat) (h : Host) : Host :=
  { h with faults := { h.faults with repeatPulls := k } }

/-- The station with repeated pulls to come. -/
def Station.withRepeats (k : Nat) (s : Station) : Station :=
  { s with host := s.host.withRepeats k }

/-- A veil of repeated pulls and ids only. -/
def Veil.echo (k : Nat) (stale : List TaskId) : Veil := ⟨k, stale, [], [], []⟩

/-- The lines that logging an entry prints. -/
def Logger.prints (l : Logger) (e : LogEntry) : List PrintedLine :=
  if (l.attributed e).level.atLeast l.threshold then
    [⟨(l.attributed e).render, (l.attributed e).level.atLeast .warn⟩]
  else []

/-- The entry that ends a drain, with the numbers of ids that were executed, failed and
skipped. -/
def LogEntry.finished (source : Option WorkerId) (executed failed skipped : Nat) : LogEntry where
  level := .info
  source := source
  message := "drain finished"
  fields := [("executed", toString executed), ("failed", toString failed),
    ("skipped", toString skipped)]

/-- The entry about an id that is skipped. -/
def LogEntry.passedOver (source : Option WorkerId) (task : TaskId) : LogEntry where
  level := .debug
  source := source
  message := "pulled task has no callback"
  fields := [("task", task.token)]

namespace Logger

theorem attributed_drainFinished (l : Logger) (r : DrainReport) :
    l.attributed (.drainFinished r)
      = .finished l.source r.executed.length r.failed.length r.skipped.length := rfl

theorem attributed_taskSkipped (l : Logger) (task : TaskId) :
    l.attributed (.taskSkipped task) = .passedOver l.source task := rfl

/-- An entry that has the log's source is printed as the entry without one. -/
theorem prints_attributed (l : Logger) (e : LogEntry) : l.prints (l.attributed e) = l.prints e := by
  have same : l.attributed (l.attributed e) = l.attributed e := by
    obtain ⟨source, threshold, entries⟩ := l
    obtain ⟨level, own, message, fields⟩ := e
    cases own <;> cases source <;> rfl
  rw [prints, prints, same]

end Logger

/-- Whether a veil hides lines, entries and a journal only. -/
structure Veil.Past (v : Veil) : Prop where
  repeats : v.repeats = 0
  stale : v.stale = []

/-! ### Pulling under a veil -/

theorem modify_eq_of_getElem? {α : Type} {l : List α} {i : Nat} {f : α → α}
    (same : ∀ a, l[i]? = some a → f a = a) : l.modify i f = l := by
  refine List.ext_getElem? fun j => ?_
  rw [List.getElem?_modify]
  cases place : l[j]? with
  | none => rfl
  | some a =>
    by_cases e : i = j
    · subst e
      simp [same a place]
    · simp [e]

theorem Context.allBehind_nil (id : ContextId) (cs : List Context) :
    Context.allBehind [] id cs = cs := by
  cases id with
  | foreign u => rfl
  | spawned i => exact modify_eq_of_getElem? fun _ _ => rfl

namespace Host

variable {h : Host} {id : ContextId} {c : Context} {k : Nat}

theorem withRepeats_self (repeats : h.faults.repeatPulls = k) : h.withRepeats k = h := by
  subst repeats
  rfl

theorem passPull_eq_self (pulls : h.outages.pulls = 0) : h.passPull = h := by
  unfold passPull
  rw [pulls, Nat.zero_sub, ← pulls]

theorem pull_eq_dequeue (pulls : h.outages.pulls = 0) :
    h.pull id
      = (h.withRepeats (h.faults.repeatPulls - 1)).dequeue (0 < h.faults.repeatPulls) id := by
  unfold pull
  rw [if_neg (by omega), unqueueTask_eq, passPull_eq_self pulls]
  rfl

theorem pull_repeating (known : h.context? id = some c) (pulls : h.outages.pulls = 0)
    (repeats : h.faults.repeatPulls = k + 1) :
    h.pull id = (h.withRepeats k, .ok c.queue.ids.head?) := by
  have known' : (h.withRepeats k).context? id = some c := (context?_congr rfl id).trans known
  rw [pull_eq_dequeue pulls, repeats, Nat.add_sub_cancel]
  unfold dequeue
  rw [known']
  simp [TaskQueue.peek?]

theorem pull_plain (known : h.context? id = some c) (pulls : h.outages.pulls = 0)
    (repeats : h.faults.repeatPulls = 0) :
    h.pull id = (h.modifyContext id fun d => { d with queue := ⟨c.queue.ids.tail⟩ },
      .ok c.queue.ids.head?) := by
  rw [pull_eq_dequeue pulls, repeats, Nat.zero_sub, withRepeats_self repeats]
  unfold dequeue
  rw [known]
  obtain ⟨handle, ⟨ids⟩, signals⟩ := c
  cases ids <;> simp [TaskQueue.pop?]

theorem modifyContext_fixed {f : Context → Context}
    (same : ∀ d, h.context? id = some d → f d = d) : h.modifyContext id f = h := by
  cases id with
  | foreign u => rfl
  | spawned i =>
    simp only [modifyContext, modify_eq_of_getElem? same]

/-- A pull from an empty queue takes nothing but a planned repeat. -/
theorem pull_empty (known : h.context? id = some c) (pulls : h.outages.pulls = 0)
    (empty : c.queue.ids = []) :
    h.pull id = (h.withRepeats (h.faults.repeatPulls - 1), .ok none) := by
  cases repeats : h.faults.repeatPulls with
  | succ k =>
    have peeked := pull_repeating known pulls repeats
    rw [empty] at peeked
    exact peeked
  | zero =>
    have popped := pull_plain known pulls repeats
    rw [empty] at popped
    have same : h.modifyContext id (fun d => { d with queue := ⟨[]⟩ }) = h :=
      modifyContext_fixed fun d hd => by
        obtain rfl := Option.some.inj (hd.symm.trans known)
        obtain ⟨handle, ⟨queued⟩, signals⟩ := d
        obtain rfl : queued = [] := empty
        rfl
    rw [Nat.zero_sub, withRepeats_self repeats]
    exact popped.trans (congrArg (·, _) same)

theorem veil_echo_nil : h.veil (.echo k []) id = h.withRepeats k := by
  simp only [veil, Veil.echo, Context.allBehind_nil, List.nil_append, withRepeats]

/-- Taking the stale id out of the queue lifts the veil. -/
theorem modifyContext_veil_echo {ids : List TaskId} (known : h.context? id = some c) :
    (h.veil (.echo k ids) id).modifyContext id (fun d => { d with queue := c.queue })
      = h.withRepeats k := by
  cases id with
  | foreign u => cases known
  | spawned i =>
    have same : h.contexts.modify i ((fun d => { d with queue := c.queue }) ∘ Context.behind ids)
        = h.contexts := modify_eq_of_getElem? fun d place => by
      obtain rfl := Option.some.inj (place.symm.trans known)
      rfl
    simp only [veil, Veil.echo, modifyContext, Context.allBehind, List.modify_modify_eq, same,
      List.nil_append, withRepeats]

/-- The first id of a queue as a stale id before the others. -/
theorem veil_echo_modifyContext {task : TaskId} {rest : List TaskId}
    (known : h.context? id = some c) (queue : c.queue.ids = task :: rest) :
    (h.modifyContext id fun d => { d with queue := ⟨rest⟩ }).veil (.echo k [task]) id
      = h.withRepeats k := by
  cases id with
  | foreign u => cases known
  | spawned i =>
    have same : h.contexts.modify i (Context.behind [task] ∘ fun d => { d with queue := ⟨rest⟩ })
        = h.contexts := modify_eq_of_getElem? fun d place => by
      obtain rfl := Option.some.inj (place.symm.trans known)
      obtain ⟨handle, ⟨ids⟩, signals⟩ := d
      obtain rfl : ids = task :: rest := queue
      rfl
    simp only [veil, Veil.echo, modifyContext, Context.allBehind, List.modify_modify_eq, same,
      List.nil_append, withRepeats]

end Host

namespace Station

variable {s t : Station} {k : Nat} {task : TaskId}

/-- Whether a worker that neither pushes nor pulls by itself can pull without failure, and
no repeats are planned. -/
structure Plain (s : Station) : Prop where
  known : (s.host.context? s.context).isSome
  pulls : s.host.outages.pulls = 0
  repeats : s.host.faults.repeatPulls = 0
  obeys : s.Obeys HostCall.SparesQueue

theorem Plain.keeps (hs : s.Plain) (keeps : s.Keeps t) (obeys : t.Obeys HostCall.SparesQueue) :
    t.Plain where
  known := by
    obtain ⟨c, hc⟩ := Option.isSome_iff_exists.mp hs.known
    obtain ⟨d, hd, -⟩ := keeps.host.known _ c hc
    rw [keeps.context, hd]
    rfl
  pulls := Nat.le_zero.mp (hs.pulls ▸ keeps.host.refusedPulls)
  repeats := Nat.le_zero.mp (hs.repeats ▸ keeps.host.repeats)
  obeys := obeys

theorem Plain.pull (hs : s.Plain) : s.pull.2 = .ok s.queue.head? :=
  (View.host_pull s).1.trans (Host.pull_cases hs.known hs.pulls).1

theorem withRepeats_self (hs : s.Plain) : s.withRepeats 0 = s := by
  unfold withRepeats
  rw [Host.withRepeats_self hs.repeats]

theorem veil_echo_nil : s.veil (.echo k []) = s.withRepeats k := by
  unfold veil withRepeats
  rw [Host.veil_echo_nil]
  rfl

theorem pull_eq {h : Host} {r : Option TaskId} (pulled : s.host.pull s.context = (h, .ok r)) :
    s.pull = ({ s with host := h }.note (.pulled r), .ok r) := by
  unfold pull
  rw [pulled]

theorem veil_known (hs : s.Plain) (v : Veil) : ∃ c, s.host.context? s.context = some c
    ∧ (s.veil v).host.context? (s.veil v).context = some (c.behind v.stale) := by
  obtain ⟨c, hc⟩ := Option.isSome_iff_exists.mp hs.known
  refine ⟨c, hc, ?_⟩
  show (s.host.veil v s.context).context? s.context = _
  rw [Host.context?_veil, hc]
  rfl

theorem pull_echo_succ (hs : s.Plain) : (s.veil (.echo (k + 1) [task])).pull
    = ((s.note (.pulled (some task))).veil (.echo k [task]), .ok (some task)) := by
  obtain ⟨c, -, known⟩ := veil_known hs (.echo (k + 1) [task])
  exact pull_eq (Host.pull_repeating known hs.pulls rfl)

theorem pull_echo_zero (hs : s.Plain) : (s.veil (.echo 0 [task])).pull
    = (s.note (.pulled (some task)), .ok (some task)) := by
  obtain ⟨c, there, known⟩ := veil_known hs (.echo 0 [task])
  have lifted : (s.host.veil (.echo 0 [task]) s.context).modifyContext s.context _ = _ :=
    Host.modifyContext_veil_echo there
  rw [Host.withRepeats_self hs.repeats] at lifted
  have popped : (s.veil (.echo 0 [task])).host.pull (s.veil (.echo 0 [task])).context
      = (s.host, .ok (some task)) :=
    (Host.pull_plain known hs.pulls rfl).trans (congrArg (·, _) lifted)
  exact pull_eq popped

theorem pull_withRepeats_nil (hs : s.Plain) (empty : s.queue = []) :
    (s.withRepeats k).pull = ((s.note (.pulled none)).withRepeats (k - 1), .ok none) := by
  obtain ⟨c, there⟩ := Option.isSome_iff_exists.mp hs.known
  have ids : c.queue.ids = [] := (Host.queuedIds_of_context? there).symm.trans empty
  have known : (s.withRepeats k).host.context? (s.withRepeats k).context = some c :=
    (Host.context?_congr rfl s.context).trans there
  exact pull_eq (Host.pull_empty known hs.pulls ids)

/-- The first id of a queue can be told from the others as a stale id before them. -/
theorem exists_veil_of_queue {rest : List TaskId} (hs : s.Plain) (queue : s.queue = task :: rest) :
    ∃ u : Station, u.Plain ∧ u.worker = s.worker ∧ u.journal = s.journal
      ∧ ∀ k, s.withRepeats k = u.veil (.echo k [task]) := by
  obtain ⟨c, there⟩ := Option.isSome_iff_exists.mp hs.known
  have ids : c.queue.ids = task :: rest := (Host.queuedIds_of_context? there).symm.trans queue
  let f : Context → Context := fun d => { d with queue := ⟨rest⟩ }
  have evolves : s.host.Evolves s.context (s.host.modifyContext s.context f) :=
    Host.evolves_modifyContext s.host s.context fun _ => rfl
  refine ⟨{ s with host := s.host.modifyContext s.context f }, ⟨?_, ?_, ?_, hs.obeys⟩, rfl, rfl,
    fun k => ?_⟩
  · show ((s.host.modifyContext s.context f).context? s.context).isSome
    rw [Host.context?_modifyContext, there]
    rfl
  · exact Nat.le_zero.mp (hs.pulls ▸ evolves.refusedPulls)
  · exact Nat.le_zero.mp (hs.repeats ▸ evolves.repeats)
  · unfold withRepeats
    rw [← Host.veil_echo_modifyContext there ids]
    rfl

/-- A veil that hides only what is past does not matter to a pull. -/
theorem pull_veil {v : Veil} (past : v.Past) (hs : s.Plain) :
    (s.veil v).pull = (s.pull.1.veil v, s.pull.2) := by
  obtain ⟨repeats, stale, lines, entries, journal⟩ := v
  obtain ⟨rfl, rfl⟩ : repeats = 0 ∧ stale = [] := ⟨past.repeats, past.stale⟩
  let v : Veil := ⟨0, [], lines, entries, journal⟩
  obtain ⟨c, there, known⟩ := veil_known hs v
  let f : Context → Context := fun d => { d with queue := ⟨c.queue.ids.tail⟩ }
  have bare : s.pull = ({ s with host := s.host.modifyContext s.context f }.note
      (.pulled c.queue.ids.head?), .ok c.queue.ids.head?) :=
    pull_eq (Host.pull_plain there hs.pulls hs.repeats)
  have changed : (s.host.veil v s.context).modifyContext s.context f
      = (s.host.modifyContext s.context f).veil v s.context := Host.modifyContext_veil fun _ => rfl
  have veiled := pull_eq ((Host.pull_plain known hs.pulls rfl).trans (congrArg (·, _) changed))
  rw [bare]
  refine veiled.trans (congrArg (·, _) ?_)
  exact note_veil (s := { s with host := s.host.modifyContext s.context f }) _

/-! ### Skipping ids -/

theorem log_eq (s : Station) (e : LogEntry) : s.log e
    = { s with
        host := { s.host with output := s.host.output ++ s.worker.logger.prints e }
        worker := { s.worker with logger := { s.worker.logger with
          entries := s.worker.logger.entries ++ [s.worker.logger.attributed e] } } } := by
  unfold log Logger.log Logger.prints
  by_cases printed : (s.worker.logger.attributed e).level.atLeast s.worker.logger.threshold
  · simp only [printed, if_true, Host.print]
  · simp [printed]

/-- The station after pulls have brought ids that are skipped. -/
def skips : List TaskId → Station → Station
  | [], s => s
  | task :: rest, s => skips rest ((s.note (.pulled (some task))).log (.taskSkipped task))

/-- The station as if nothing had been printed, logged and noted. -/
def bare (s : Station) : Station where
  host := { s.host with output := [] }
  worker := { s.worker with logger := { s.worker.logger with entries := [] } }
  journal := []

/-- What a station has printed, logged and noted after some ids have been skipped. -/
def past (skipped : List TaskId) (s : Station) : Veil where
  repeats := 0
  stale := []
  lines := s.host.output
    ++ skipped.flatMap fun task => s.worker.logger.prints (.taskSkipped task)
  entries := s.worker.logger.entries
    ++ skipped.map fun task => s.worker.logger.attributed (.taskSkipped task)
  journal := s.journal ++ skipped.map fun task => .pulled (some task)

/-- Skipping ids only adds to what is past. -/
theorem skips_eq {skipped : List TaskId} (hs : s.Plain) :
    s.skips skipped = s.bare.veil (s.past skipped) := by
  have repeats := hs.repeats
  clear hs
  induction skipped generalizing s with
  | nil =>
    have same : s.host.withRepeats 0 = s.host := Host.withRepeats_self repeats
    simp only [skips, veil, bare, past, Host.veil, Context.allBehind_nil, List.flatMap_nil,
      List.map_nil, List.append_nil]
    exact congrArg (fun h : Host => ({ s with host := h } : Station)) same.symm
  | cons task rest ih =>
    rw [skips, ih (by rw [log_eq]; exact repeats), log_eq]
    simp [bare, past, note, Logger.prints, Logger.attributed, List.append_assoc]

theorem plain_bare (hs : s.Plain) : s.bare.Plain := ⟨hs.known, hs.pulls, hs.repeats, hs.obeys⟩

theorem plain_skip (hs : s.Plain) (task : TaskId) :
    ((s.note (.pulled (some task))).log (.taskSkipped task)).Plain := by
  have noted : (s.note (.pulled (some task))).Plain := ⟨hs.known, hs.pulls, hs.repeats, hs.obeys⟩
  have logged : Deeds HostCall.SparesQueue _ _ :=
    deeds_log (s.note (.pulled (some task))) (.taskSkipped task)
  exact noted.keeps (keeps_deeds logged) (obeys_deeds noted.obeys logged)

end Station

/-- The report of a loop that has skipped other ids before. -/
def DrainReport.past (skipped : List TaskId) (r : DrainReport) : DrainReport :=
  { r with skipped := skipped ++ r.skipped }

namespace DispatchLoop

variable {l k : DispatchLoop} {s t : Station} {task : TaskId} {r : DrainReport}

/-- The loop that has skipped other ids before. -/
def past (skipped : List TaskId) (l : DispatchLoop) : DispatchLoop :=
  ⟨l.state, l.report.past skipped⟩

/-! ### Dispatching under a veil -/

/-- Dispatching an id does the same under a veil with nothing but the id in it, and after
other ids have been skipped. -/
theorem dispatch_veil (l : DispatchLoop) {v : Veil} (hs : s.Obeys HostCall.SparesQueue)
    (stale : ∀ key ∈ v.stale, key = task) (skipped : List TaskId) :
    (l.past skipped).dispatch (s.veil v) task
      = ((l.dispatch s task).1.past skipped, (l.dispatch s task).2.veil v) := by
  have taken : (s.veil v).takeCallback task
      = ((s.takeCallback task).1, (s.takeCallback task).2.veil v) := rfl
  unfold dispatch
  rw [taken]
  cases callback : s.takeCallback task with
  | mk found rest =>
    cases found with
    | none =>
      simp only [Station.log_veil]
      refine congrArg (·, _) ?_
      simp [past, DrainReport.past, DrainReport.skip, List.append_assoc]
    | some body =>
      have registered : s.worker.registry.callback? task = some body := congrArg Prod.fst callback
      obtain rfl : (s.takeCallback task).2 = rest := congrArg Prod.snd callback
      have ran := Station.runTask_veil task (s := (s.takeCallback task).2) (v := v)
        (fun b hb => hs b (View.bodies_takeCallback s task b hb))
        (View.obeys_callback hs registered) stale
      simp only [ran]
      cases (s.takeCallback task).2.runTask task body with
      | mk t result =>
        cases result with
        | ok u => rfl
        | error e => exact congrArg (_, ·) (Station.log_veil _)

/-! ### Runs under a veil -/

theorem plain_step (hs : s.Plain) (stepped : l.step s = (k, t, .ok ())) : t.Plain := by
  have moved := View.moves_step [] [] l hs.obeys
  have keeps := View.keeps_moves moved
  have obeys := View.obeys_moves hs.obeys moved
  rw [stepped] at keeps obeys
  exact hs.keeps keeps obeys

/-- A step does the same whatever is past, unless it is the last. -/
theorem step_veil {v : Veil} (past : v.Past) (hs : s.Plain)
    (goesOn : (l.step s).1.state ≠ .drained) (skipped : List TaskId) :
    (l.past skipped).step (s.veil v)
      = ((l.step s).1.past skipped, (l.step s).2.1.veil v, (l.step s).2.2) := by
  have stale : ∀ key, key ∉ v.stale := fun key hk => by rw [past.stale] at hk; cases hk
  obtain ⟨state, report⟩ := l
  cases state with
  | idle =>
    have fits : Station.Fits v s := fun key hk => absurd hk (stale key)
    simp only [step, DispatchLoop.past, Station.settle_veil none hs.obeys fits]
  | pullPending =>
    have veiled := Station.pull_veil past hs
    cases pulled : s.pull with
    | mk u r =>
      rw [pulled] at veiled
      simp only [step, pulled, DispatchLoop.past, veiled] at goesOn ⊢
      cases r with
      | error e => rfl
      | ok found =>
        cases found with
        | none => exact absurd rfl goesOn
        | some task => rfl
  | dispatching task =>
    have served := dispatch_veil ⟨.dispatching task, report⟩ hs.obeys
      (fun key hk => (absurd hk (stale key) : key = task)) skipped
    exact congrArg (fun p => (p.1, p.2, Except.ok ())) served
  | drained => exact absurd rfl goesOn

/-- The last step is a pull that brings nothing. -/
theorem pulled_of_last (pending : l.state ≠ .drained) (last : (l.step s).1.state = .drained) :
    l = ⟨.pullPending, l.report⟩ ∧ s.pull = (s.pull.1, .ok none) := by
  obtain ⟨state, report⟩ := l
  cases state with
  | idle => cases last
  | pullPending =>
    cases pulled : s.pull with
    | mk u r =>
      simp only [step, pulled] at last
      cases r with
      | error e => cases last
      | ok found =>
        cases found with
        | none => exact ⟨rfl, rfl⟩
        | some task => cases last
  | dispatching task =>
    cases (state_dispatch _ s task).symm.trans last
  | drained => exact absurd rfl pending

/-- A run does the same whatever is past; only the report, and the entry about it, tell
of the ids that have been skipped before. -/
theorem run_veil (hs : s.Plain) (pending : l.state ≠ .drained) :
    ∃ (t : Station) (report : DrainReport), ∀ v : Veil, v.Past → ∀ skipped,
      (l.past skipped).run (s.veil v)
        = ((t.log (.drainFinished (report.past skipped))).veil v, .ok (report.past skipped)) := by
  fun_induction run l s with
  | case1 l s hd => exact absurd hd pending
  | case2 l s hd k t e h =>
    obtain ⟨-, -, error, -, failed⟩ := View.step_eq_error h
    have succeeds := hs.pull
    rw [failed] at succeeds
    cases succeeds
  | case3 l s hd k t h ih =>
    by_cases last : k.state = .drained
    · obtain ⟨shape, pulled⟩ := pulled_of_last hd (by rw [h]; exact last)
      refine ⟨s.pull.1, l.report, fun v past skipped => ?_⟩
      have veiled := (Station.pull_veil past hs).trans
        (congrArg (fun r => (s.pull.1.veil v, r)) (congrArg Prod.snd pulled))
      rw [shape, DispatchLoop.past, ← Station.log_veil]
      exact run_dry veiled
    · obtain ⟨u, report, rest⟩ := ih (plain_step hs h) last
      refine ⟨u, report, fun v past skipped => ?_⟩
      have stepped := step_veil past hs (by rw [h]; exact last) skipped
      rw [h] at stepped
      have pending' : (l.past skipped).state ≠ .drained := hd
      exact (run_step pending' stepped).trans (rest v past skipped)

/-! ### The first id, given out several times -/

/-- A stale id is pulled and skipped until a pull takes it away. -/
theorem run_stale (hs : s.Plain) (unregistered : s.worker.registry.callback? task = none) (n : Nat)
    (r : DrainReport) : run ⟨.pullPending, r⟩ (s.veil (.echo n [task]))
      = run ⟨.pullPending, { r with skipped := r.skipped ++ List.replicate (n + 1) task }⟩
        (s.skips (List.replicate (n + 1) task)) := by
  let pulled : Station := s.note (.pulled (some task))
  induction n generalizing s r with
  | zero =>
    have skipped := dispatch_unregistered (r := r) (s := pulled) unregistered
    rw [run_pulled (Station.pull_echo_zero hs), skipped]
    rfl
  | succ n ih =>
    have skipped := dispatch_unregistered (r := r) (s := pulled.veil (.echo n [task])) unregistered
    rw [run_pulled (Station.pull_echo_succ hs), skipped, Station.log_veil]
    refine (ih (Station.plain_skip hs task) unregistered (r.skip task)).trans ?_
    simp only [DrainReport.skip, List.append_assoc, List.singleton_append]
    rfl

/-- The first id of the queue, given out once more for each repeat: it is dispatched, and
then skipped. -/
theorem run_repeated (hs : s.Plain) (r : DrainReport)
    (served : dispatch ⟨.dispatching task, r⟩ (s.note (.pulled (some task))) task = (l, t))
    (unregistered : t.worker.registry.callback? task = none) (k : Nat) :
    run ⟨.pullPending, r⟩ (s.veil (.echo k [task]))
      = run ⟨.pullPending, { l.report with skipped := l.report.skipped ++ List.replicate k task }⟩
        (t.skips (List.replicate k task)) := by
  let pulled : Station := s.note (.pulled (some task))
  have plain : pulled.Plain := ⟨hs.known, hs.pulls, hs.repeats, hs.obeys⟩
  have pending : l.state = .pullPending := by
    have state := state_dispatch ⟨.dispatching task, r⟩ pulled task
    rw [served] at state
    exact state
  cases k with
  | zero =>
    rw [run_pulled (Station.pull_echo_zero hs), served]
    obtain ⟨state, report⟩ := l
    obtain rfl : state = .pullPending := pending
    rw [List.replicate_zero, List.append_nil]
    rfl
  | succ n =>
    have stepped : step ⟨.dispatching task, r⟩ pulled = (l, t, .ok ()) :=
      congrArg (fun p => (p.1, p.2, Except.ok ())) served
    have veiled := dispatch_veil ⟨.dispatching task, r⟩ (v := .echo n [task]) plain.obeys
      (fun _ hk => List.mem_singleton.mp hk) []
    rw [served] at veiled
    rw [run_pulled (Station.pull_echo_succ hs)]
    refine Eq.trans ?_ (run_stale (plain_step plain stepped) unregistered n l.report)
    obtain ⟨state, report⟩ := l
    obtain rfl : state = .pullPending := pending
    exact congrArg (fun p => p.1.run p.2) veiled

end DispatchLoop

end TaskHost
