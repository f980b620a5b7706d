/-
# What a loop's report accounts for

A tally is a loop with what its steps have done so far: the ids that its pulls brought, the
callbacks that it ran, and the entries that it logged itself, those of the callbacks and
those about timers left out. The loop may be stepped at any station each time, since anything
may happen between its steps (`Tally.visitAll`).

Every id that was brought was served once, or is in hand. What became of the ids that were
served is one list (`Service`), and the report, the callbacks that ran and the loop's own
entries are all read off this list (`Tally.Accounts`). A step adds a service to it or
nothing (`Tally.accounts_visit`).

In a session the tally goes on with every command that steps the loop, and its loop is the
session's (`Session.loops_visitsAll`); a run visits one station after the other
(`DispatchLoop.visited`).

Key definitions: `DispatchLoop.worked`, `Tally`, `Tally.visit`, `Service`, `Tally.Accounts`,
`DispatchLoop.visited`, `Session.visits`.
Key theorems: `DispatchLoop.grows_worked`, `Tally.accounts_visit`, `Tally.loop_visited`,
`Session.loops_visitsAll`, `Session.pulls_accounted`.
-/
import TaskHost.Proofs.Drained
import TaskHost.Proofs.Fifo
import TaskHost.Proofs.Retries

namespace TaskHost

/-! ### The parts of a step -/

theorem Station.told_pull {s t : Station} {task : Option TaskId} (pulled : s.pull = (t, .ok task)) :
    pulledIds t.journal = pulledIds s.journal ++ task.toList
      ∧ concluded t.journal = concluded s.journal := by
  unfold pull at pulled
  split at pulled
  · next h brought _ =>
    obtain ⟨rfl, same⟩ := Prod.mk.inj pulled
    obtain rfl := Except.ok.inj same
    exact ⟨pulledIds_concat s.journal _, (concluded_concat s.journal _).trans (List.append_nil _)⟩
  · cases pulled

namespace DispatchLoop

variable {l : DispatchLoop} {s : Station} {task : TaskId}

theorem step_dispatching (held : l.state = .dispatching task) :
    l.step s = ((l.dispatch s task).1, (l.dispatch s task).2, .ok ()) := by
  rw [step, held]

/-- The station when the callbacks of a step have run and timers are settled: what is logged
after this is logged by the loop itself. -/
def worked (l : DispatchLoop) (s : Station) : Station :=
  match l.state with
  | .idle => (s.settle none).1
  | .dispatching task =>
    match s.takeCallback task with
    | (some body, t) => (t.runTask task body).1
    | (none, _) => s
  | .pullPending => s
  | .drained => s

theorem worked_unregistered (held : l.state = .dispatching task)
    (unregistered : s.worker.registry.callback? task = none) : l.worked s = s := by
  have taken : s.takeCallback task = (none, (s.takeCallback task).2) := Prod.ext unregistered rfl
  unfold worked
  rw [held]
  dsimp only
  rw [taken]

theorem worked_registered {body : Body} (held : l.state = .dispatching task)
    (registered : s.worker.registry.callback? task = some body) :
    l.worked s = ((s.takeCallback task).2.runTask task body).1 := by
  have taken : s.takeCallback task = (some body, (s.takeCallback task).2) := Prod.ext registered rfl
  unfold worked
  rw [held]
  dsimp only
  rw [taken]

/-- In a step the log grows by what callbacks and timers bring, and then by what the loop
logs itself. -/
theorem grows_worked (l : DispatchLoop) (s : Station) :
    s.worker.logger.Grows (l.worked s).worker.logger
      ∧ (l.worked s).worker.logger.Grows (l.step s).2.1.worker.logger := by
  have whole : s.worker.logger.Grows (l.step s).2.1.worker.logger :=
    View.grows_moves (View.moves_step [] [] l s.obeys_any)
  cases state : l.state with
  | idle =>
    have settled : l.worked s = (l.step s).2.1 := by rw [worked, step, state]
    rw [settled]
    exact ⟨whole, .refl _⟩
  | dispatching task =>
    cases callback : s.worker.registry.callback? task with
    | none =>
      rw [worked_unregistered state callback]
      exact ⟨.refl _, whole⟩
    | some body =>
      have ran := View.grows_moves (View.moves_runTask []
        (s.takeCallback task).2.obeys_any task (Body.obeys_any body))
      rw [worked_registered state callback]
      refine ⟨ran, ?_⟩
      rw [step_dispatching state]
      cases result : (s.takeCallback task).2.runTask task body with
      | mk u r =>
        cases r with
        | ok done =>
          simp only [dispatch_executed callback result]
          exact .refl _
        | error e =>
          simp only [dispatch_failed callback result, Station.logger_log]
          exact Logger.grows_record _ _
  | pullPending | drained =>
    have still : l.worked s = s := by rw [worked, state]
    rw [still]
    exact ⟨.refl _, whole⟩

/-- The entry of a loop that is drained, which counts what it reports. -/
def closing (l : DispatchLoop) (source : Option WorkerId) : List LogEntry :=
  if l.state = .drained then
    [⟨.info, source, "drain finished", [("executed", toString l.report.executed.length),
      ("failed", toString l.report.failed.length), ("skipped", toString l.report.skipped.length)]⟩]
  else []

end DispatchLoop

/-! ### Tallies -/

/-- A loop, and what its steps have done so far: the ids that its pulls brought, the tasks
whose callbacks it ran, each with the outcome, and the entries that it logged itself. -/
structure Tally where
  loop : DispatchLoop
  pulled : List TaskId
  ran : List (TaskId × Except TaskError Unit)
  logged : List LogEntry

namespace Tally

/-- A loop that has not begun. -/
def start : Tally := ⟨.start, [], [], []⟩

/-- The tally after a step at a station. -/
def visit (t : Tally) (s : Station) : Tally :=
  let next := (t.loop.step s).2.1
  { loop := (t.loop.step s).1
    pulled := t.pulled ++ (pulledIds next.journal).drop (pulledIds s.journal).length
    ran := t.ran ++ (concluded next.journal).drop (concluded s.journal).length
    logged := t.logged ++ next.worker.logger.entries.drop
      (t.loop.worked s).worker.logger.entries.length }

/-- The tally after steps at stations, one after the other. -/
def visitAll (t : Tally) (stations : List Station) : Tally := stations.foldl visit t

theorem visitAll_append (t : Tally) (first second : List Station) :
    t.visitAll (first ++ second) = (t.visitAll first).visitAll second := List.foldl_append

theorem loop_visit (t : Tally) (s : Station) : (t.visit s).loop = (t.loop.step s).1 := rfl

end Tally

/-- What became of a pulled id. -/
inductive Fate where
  | executed
  | failed (e : TaskError)
  | skipped

/-- A pulled id that was dispatched: what became of it, and from whose log this is told. -/
structure Service where
  task : TaskId
  fate : Fate
  source : Option WorkerId

namespace Service

/-- The callback that ran, with its outcome. -/
def outcome? (v : Service) : Option (TaskId × Except TaskError Unit) :=
  match v.fate with
  | .executed => some (v.task, .ok ())
  | .failed e => some (v.task, .error e)
  | .skipped => none

/-- The id, if its callback ended well. -/
def executed? (v : Service) : Option TaskId :=
  match v.fate with
  | .executed => some v.task
  | _ => none

/-- The id and the text of its callback's error, if it failed. -/
def failed? (v : Service) : Option (TaskId × String) :=
  match v.fate with
  | .failed e => some (v.task, e.message)
  | _ => none

/-- The id, if it had no callback. -/
def skipped? (v : Service) : Option TaskId :=
  match v.fate with
  | .skipped => some v.task
  | _ => none

/-- The entry that the loop logs about it. -/
def logs? (v : Service) : Option LogEntry :=
  match v.fate with
  | .executed => none
  | .failed e => some ⟨.error, v.source, "task failed",
      [("task", v.task.token), ("error", e.message)]⟩
  | .skipped => some ⟨.debug, v.source, "pulled task has no callback", [("task", v.task.token)]⟩

/-- Every id that was served was executed, failed or was skipped. -/
theorem length_eq (services : List Service) : services.length
    = (services.filterMap executed?).length + (services.filterMap failed?).length
      + (services.filterMap skipped?).length := by
  induction services with
  | nil => rfl
  | cons v rest ih =>
    obtain ⟨task, fate, source⟩ := v
    cases fate with
    | executed | failed e | skipped =>
      simp only [List.filterMap_cons, executed?, failed?, skipped?, List.length_cons]
      omega

theorem succeeded_outcomes (services : List Service) :
    succeeded (services.filterMap outcome?) = services.filterMap executed? := by
  rw [succeeded, List.filterMap_filterMap]
  congr 1
  funext v
  obtain ⟨task, fate, source⟩ := v
  cases fate <;> rfl

theorem failures_outcomes (services : List Service) :
    failures (services.filterMap outcome?) = services.filterMap failed? := by
  rw [failures, List.filterMap_filterMap]
  congr 1
  funext v
  obtain ⟨task, fate, source⟩ := v
  cases fate <;> rfl

end Service

namespace Tally

variable {t : Tally} {s u : Station} {l : DispatchLoop} {services : List Service}

/-- Whether a tally is what became of the ids that were served: besides these an id may be
in hand, and a loop that is drained has logged this. -/
structure Accounts (t : Tally) (services : List Service) : Prop where
  pulled : t.pulled = services.map Service.task ++ t.loop.state.held?.toList
  ran : t.ran = services.filterMap Service.outcome?
  executed : t.loop.report.executed = services.filterMap Service.executed?
  failed : t.loop.report.failed = services.filterMap Service.failed?
  skipped : t.loop.report.skipped = services.filterMap Service.skipped?
  logged : ∃ source, t.logged = services.filterMap Service.logs? ++ t.loop.closing source

theorem accounts_start : start.Accounts [] := ⟨rfl, rfl, rfl, rfl, rfl, none, rfl⟩

theorem visit_eq {ids : List TaskId} {ends : List (TaskId × Except TaskError Unit)}
    {r : Except DispatchError Unit} (es : List LogEntry) (stepped : t.loop.step s = (l, u, r))
    (pulled : pulledIds u.journal = pulledIds s.journal ++ ids)
    (ended : concluded u.journal = concluded s.journal ++ ends)
    (log : u.worker.logger.entries = (t.loop.worked s).worker.logger.entries ++ es) :
    t.visit s = ⟨l, t.pulled ++ ids, t.ran ++ ends, t.logged ++ es⟩ := by
  unfold visit
  simp only [stepped, pulled, ended, log, List.drop_left]

theorem visit_idle {r : Except DispatchError Unit} (stepped : t.loop.step s = (t.loop, u, r))
    (journal : u.journal = s.journal)
    (log : u.worker.logger.entries = (t.loop.worked s).worker.logger.entries) : t.visit s = t := by
  have nothing := visit_eq [] stepped
    ((congrArg pulledIds journal).trans (List.append_nil _).symm)
    ((congrArg concluded journal).trans (List.append_nil _).symm)
    (log.trans (List.append_nil _).symm)
  simpa only [List.append_nil] using nothing

theorem visit_failed {e : DispatchError} (failed : (t.loop.step s).2.2 = .error e) :
    t.visit s = t := by
  have whole := DispatchLoop.step_of_result failed
  obtain ⟨state, same, faults, outages, left⟩ := DispatchLoop.step_eq_error_facts whole
  rw [same, left] at whole
  have idle : t.loop.worked s = s := by rw [DispatchLoop.worked, state]
  exact visit_idle whole rfl (by rw [idle])

theorem visit_drained (drained : t.loop.state = .drained) (s : Station) : t.visit s = t := by
  have idle : t.loop.worked s = s := by rw [DispatchLoop.worked, drained]
  exact visit_idle (DispatchLoop.step_drained drained s) rfl (by rw [idle])

theorem Accounts.entries (accounts : t.Accounts services) (pending : t.loop.state ≠ .drained) :
    t.logged = services.filterMap Service.logs? := by
  obtain ⟨source, logged⟩ := accounts.logged
  rw [DispatchLoop.closing, if_neg pending, List.append_nil] at logged
  exact logged

/-- A step that serves no id: it may bring one or end the loop. -/
theorem Accounts.turn (accounts : t.Accounts services) {k : DispatchLoop}
    (free : t.loop.state.held? = none) (report : k.report = t.loop.report)
    (pending : t.loop.state ≠ .drained) (source : Option WorkerId) :
    Accounts ⟨k, t.pulled ++ k.state.held?.toList, t.ran, t.logged ++ k.closing source⟩ services where
  pulled := by
    have pulled := accounts.pulled
    rw [free, Option.toList_none, List.append_nil] at pulled
    rw [pulled]
  ran := accounts.ran
  executed := by
    rw [← accounts.executed]
    exact congrArg _ report
  failed := by
    rw [← accounts.failed]
    exact congrArg _ report
  skipped := by
    rw [← accounts.skipped]
    exact congrArg _ report
  logged := ⟨source, by rw [accounts.entries pending]⟩

/-- A step that serves the id in hand. -/
theorem Accounts.serve (accounts : t.Accounts services) {k : DispatchLoop} (v : Service)
    (held : t.loop.state = .dispatching v.task) (next : k.state = .pullPending)
    (executed : k.report.executed = t.loop.report.executed ++ v.executed?.toList)
    (failed : k.report.failed = t.loop.report.failed ++ v.failed?.toList)
    (skipped : k.report.skipped = t.loop.report.skipped ++ v.skipped?.toList) :
    Accounts ⟨k, t.pulled, t.ran ++ v.outcome?.toList, t.logged ++ v.logs?.toList⟩
      (services ++ [v]) := by
  have more {α : Type} (f : Service → Option α) :
      (services ++ [v]).filterMap f = services.filterMap f ++ (f v).toList := by
    rw [List.filterMap_append]
    cases h : f v <;> simp [h]
  have pending : t.loop.state ≠ .drained := by
    rw [held]
    exact fun h => by cases h
  have going : k.state ≠ .drained := by
    rw [next]
    exact fun h => by cases h
  refine ⟨?_, ?_, ?_, ?_, ?_, none, ?_⟩
  · rw [accounts.pulled, held, next, List.map_append]
    exact (List.append_nil _).symm
  · rw [more, accounts.ran]
  · rw [more, executed, accounts.executed]
  · rw [more, failed, accounts.failed]
  · rw [more, skipped, accounts.skipped]
  · rw [more, accounts.entries pending, DispatchLoop.closing, if_neg going, List.append_nil]

/-! ### What a step adds -/

theorem accounts_settle (accounts : t.Accounts services) (idle : t.loop.state = .idle)
    (s : Station) : (t.visit s).Accounts services := by
  have stepped : t.loop.step s = (⟨.pullPending, t.loop.report⟩, (s.settle none).1, .ok ()) := by
    rw [DispatchLoop.step, idle]
  obtain ⟨-, ends, ids⟩ := Station.silent_deeds (Station.deeds_settle none s s.obeys_any)
  have worked : t.loop.worked s = (s.settle none).1 := by rw [DispatchLoop.worked, idle]
  have turned := accounts.turn (k := ⟨.pullPending, t.loop.report⟩)
    (by rw [idle]; rfl) rfl (by rw [idle]; exact fun h => by cases h) none
  rw [visit_eq [] stepped (ids.trans (List.append_nil _).symm) (ends.trans (List.append_nil _).symm)
    (by rw [worked, List.append_nil]), List.append_nil t.ran]
  exact turned

/-- A pull brings an id into the loop's hand, ends the loop, or adds nothing. -/
theorem accounts_pull (accounts : t.Accounts services) (pending : t.loop.state = .pullPending)
    (s : Station) : (t.visit s).Accounts services := by
  have free : t.loop.state.held? = none := by
    rw [pending]
    rfl
  have going : t.loop.state ≠ .drained := by
    rw [pending]
    exact fun h => by cases h
  have worked : t.loop.worked s = s := by rw [DispatchLoop.worked, pending]
  have worker := View.worker_pull s
  cases pulled : s.pull with
  | mk u result =>
    rw [pulled] at worker
    cases result with
    | error e =>
      rw [visit_failed (e := .host e) (by simp only [DispatchLoop.step, pending, pulled])]
      exact accounts
    | ok brought =>
      obtain ⟨ids, ends⟩ := Station.told_pull pulled
      have quiet : concluded u.journal = concluded s.journal ++ [] :=
        ends.trans (List.append_nil _).symm
      cases brought with
      | none =>
        let k : DispatchLoop := ⟨.drained, t.loop.report⟩
        have stepped : t.loop.step s = (k, u.log (.drainFinished t.loop.report), .ok ()) := by
          simp only [DispatchLoop.step, pending, pulled]
          rfl
        rw [visit_eq (k.closing u.worker.logger.source) stepped ids quiet
          (by rw [worked, ← worker]; rfl), List.append_nil t.ran]
        exact accounts.turn (k := k) free rfl going _
      | some task =>
        let k : DispatchLoop := ⟨.dispatching task, t.loop.report⟩
        have stepped : t.loop.step s = (k, u, .ok ()) := by
          simp only [DispatchLoop.step, pending, pulled]
          rfl
        rw [visit_eq [] stepped ids quiet (by rw [worked, List.append_nil, worker]),
          List.append_nil t.ran]
        exact accounts.turn (k := k) free rfl going none

/-- A dispatch serves the id in hand. -/
theorem accounts_dispatch (accounts : t.Accounts services) {task : TaskId}
    (held : t.loop.state = .dispatching task) (s : Station) :
    ∃ v, (t.visit s).Accounts (services ++ [v]) := by
  have step := DispatchLoop.step_dispatching (s := s) held
  cases callback : s.worker.registry.callback? task with
  | none =>
    have skipped : t.loop.dispatch s task
        = (⟨.pullPending, t.loop.report.skip task⟩, s.log (.taskSkipped task)) :=
      DispatchLoop.dispatch_unregistered callback
    have worked := DispatchLoop.worked_unregistered held callback
    rw [skipped] at step
    let v : Service := ⟨task, .skipped, s.worker.logger.source⟩
    have served := accounts.serve (k := ⟨.pullPending, t.loop.report.skip task⟩) v held rfl
      (List.append_nil _).symm (List.append_nil _).symm rfl
    refine ⟨v, ?_⟩
    rw [visit_eq v.logs?.toList step (List.append_nil _).symm (List.append_nil _).symm
      (by rw [worked]; rfl), List.append_nil t.pulled]
    exact served
  | some body =>
    have worked := DispatchLoop.worked_registered held callback
    obtain ⟨-, ends, same⟩ := Station.told_runTask (s.takeCallback task).2.obeys_any task
      (Body.obeys_any body)
    have ids := same.trans (List.append_nil _).symm
    cases ran : (s.takeCallback task).2.runTask task body with
    | mk u result =>
      rw [ran] at worked ids ends
      cases result with
      | ok done =>
        rw [DispatchLoop.dispatch_executed callback ran] at step
        let v : Service := ⟨task, .executed, none⟩
        have served := accounts.serve (k := ⟨.pullPending, t.loop.report.execute task⟩) v held rfl
          rfl (List.append_nil _).symm (List.append_nil _).symm
        refine ⟨v, ?_⟩
        rw [visit_eq [] step ids ends (by rw [worked, List.append_nil]),
          List.append_nil t.pulled]
        exact served
      | error e =>
        rw [DispatchLoop.dispatch_failed callback ran] at step
        let v : Service := ⟨task, .failed e, u.worker.logger.source⟩
        have served := accounts.serve (k := ⟨.pullPending, t.loop.report.fail task e⟩) v held rfl
          (List.append_nil _).symm rfl (List.append_nil _).symm
        refine ⟨v, ?_⟩
        rw [visit_eq v.logs?.toList step ids ends (by rw [worked]; rfl),
          List.append_nil t.pulled]
        exact served

/-- A step serves an id or none. -/
theorem accounts_visit (accounts : t.Accounts services) (s : Station) :
    ∃ new, (t.visit s).Accounts (services ++ new) := by
  cases state : t.loop.state with
  | idle =>
    refine ⟨[], ?_⟩
    rw [List.append_nil]
    exact accounts_settle accounts state s
  | pullPending =>
    refine ⟨[], ?_⟩
    rw [List.append_nil]
    exact accounts_pull accounts state s
  | dispatching task =>
    obtain ⟨v, served⟩ := accounts_dispatch accounts state s
    exact ⟨[v], served⟩
  | drained =>
    refine ⟨[], ?_⟩
    rw [List.append_nil, visit_drained state]
    exact accounts

/-- Whatever happens between the steps, they serve one id after the other. -/
theorem accounts_visitAll (accounts : t.Accounts services) (stations : List Station) :
    ∃ new, (t.visitAll stations).Accounts (services ++ new) := by
  induction stations generalizing t services with
  | nil =>
    refine ⟨[], ?_⟩
    rw [List.append_nil]
    exact accounts
  | cons s rest ih =>
    obtain ⟨first, visited⟩ := accounts_visit accounts s
    obtain ⟨more, whole⟩ := ih visited
    rw [List.append_assoc] at whole
    exact ⟨first ++ more, whole⟩

theorem Accounts.length_pulled (accounts : t.Accounts services) : t.pulled.length
    = t.loop.report.executed.length + t.loop.report.failed.length + t.loop.report.skipped.length
      + (if t.loop.state.held?.isSome then 1 else 0) := by
  rw [accounts.pulled, accounts.executed, accounts.failed, accounts.skipped, ← Service.length_eq,
    List.length_append, List.length_map]
  cases t.loop.state.held? <;> rfl

end Tally

/-! ### Runs -/

namespace DispatchLoop

/-- The stations at which a run steps the loop. -/
def visited (l : DispatchLoop) (s : Station) : List Station :=
  if _drained : l.state = .drained then []
  else
    match _stepped : l.step s with
    | (_, _, .error _) => [s]
    | (k, t, .ok ()) => s :: k.visited t
termination_by l.measure s
decreasing_by
  have closer := measure_step_lt l s _drained (by rw [_stepped])
  rw [_stepped] at closer
  exact closer

variable {l k : DispatchLoop} {s u : Station}

theorem visited_drained (drained : l.state = .drained) : l.visited s = [] := by
  rw [visited, dif_pos drained]

theorem visited_step (pending : l.state ≠ .drained) (stepped : l.step s = (k, u, .ok ())) :
    l.visited s = s :: k.visited u := by
  rw [visited, dif_neg pending]
  split
  · next h =>
    rw [stepped] at h
    cases h
  · next h =>
    rw [stepped] at h
    obtain ⟨rfl, rest⟩ := Prod.mk.inj h
    obtain ⟨rfl, -⟩ := Prod.mk.inj rest
    rfl

end DispatchLoop

/-- The tally of a run that comes to a report is that of a drained loop with this report. -/
theorem Tally.loop_visited (t : Tally) (s : Station) {r : DrainReport}
    (ended : (t.loop.run s).2 = .ok r) :
    (t.visitAll (t.loop.visited s)).loop = ⟨.drained, r⟩ := by
  generalize loop : t.loop = l at ended ⊢
  fun_induction DispatchLoop.run l s generalizing t with
  | case1 l s drained =>
    rw [DispatchLoop.visited_drained drained]
    obtain rfl := Except.ok.inj ended
    rw [← drained]
    exact loop
  | case2 l s pending k u e stepped => cases ended
  | case3 l s pending k u stepped ih =>
    rw [DispatchLoop.visited_step pending stepped]
    have next : (t.visit s).loop = k := by rw [loop_visit, loop, stepped]
    exact ih (t.visit s) next ended

/-! ### Sessions -/

namespace Session

variable {s : Session} {l : Nat} {t : Tally}

/-- The station of a worker that is there. -/
def station? (s : Session) (w : Nat) : Option Station :=
  s.workers[w]?.map fun worker => ⟨s.host, worker, []⟩

/-- The stations at which a command steps a loop. -/
def visits (s : Session) (l : Nat) (c : Command) : List Station :=
  match s.loops[l]?, c with
  | some (some _), .stepLoop k w => if k = l then (s.station? w).toList else []
  | some (some loop), .runLoop k w => if k = l then (s.station? w).toList.flatMap loop.visited else []
  | _, _ => []

/-- The stations at which commands step a loop. -/
def visitsAll (s : Session) (l : Nat) : List Command → List Station
  | [] => []
  | c :: rest => s.visits l c ++ (s.exec c).1.visitsAll l rest

theorem visits_apart {c : Command} (steps : ∀ w, c ≠ .stepLoop l w) (runs : ∀ w, c ≠ .runLoop l w) :
    s.visits l c = [] := by
  unfold visits
  split
  · next k w _ => exact if_neg fun same => steps w (by rw [same])
  · next k w _ => exact if_neg fun same => runs w (by rw [same])
  · rfl

theorem loops_stepped (place : s.loops[l]? = some (some t.loop)) (w : Nat) :
    (s.exec (.stepLoop l w)).1.loops[l]?
      = some (some (t.visitAll (s.visits l (.stepLoop l w))).loop) := by
  simp only [exec, visits, station?, place, if_true]
  cases member : s.workers[w]? with
  | none =>
    rw [atStation_absent member]
    exact place
  | some worker =>
    rw [atStation_member member]
    exact List.getElem?_set_self (List.getElem?_eq_some_iff.mp place).1

theorem loops_ran (place : s.loops[l]? = some (some t.loop)) (w : Nat) :
    (s.exec (.runLoop l w)).1.loops[l]?
        = some (some (t.visitAll (s.visits l (.runLoop l w))).loop)
      ∨ (s.exec (.runLoop l w)).1.loops[l]? = some none := by
  simp only [exec, visits, station?, place, if_true]
  cases member : s.workers[w]? with
  | none =>
    rw [atStation_absent member]
    exact Or.inl place
  | some worker =>
    rw [atStation_member member]
    exact Or.inr (List.getElem?_set_self (List.getElem?_eq_some_iff.mp place).1)

theorem loops_visits (place : s.loops[l]? = some (some t.loop)) (c : Command) :
    (s.exec c).1.loops[l]? = some (some (t.visitAll (s.visits l c)).loop)
      ∨ (∃ w, c = .runLoop l w) ∧ (s.exec c).1.loops[l]? = some none := by
  rcases exec_loop_cases c l with ⟨w, rfl⟩ | ⟨w, rfl⟩ | ⟨steps, runs⟩
  · exact Or.inl (loops_stepped place w)
  · exact (loops_ran place w).imp_right fun ended => ⟨⟨w, rfl⟩, ended⟩
  · rw [visits_apart steps runs]
    exact Or.inl (loops_apart place steps runs)

theorem loops_gone (gone : s.loops[l]? = some none) (c : Command) :
    (s.exec c).1.loops[l]? = some none := by
  rcases exec_loop_cases c l with ⟨w, rfl⟩ | ⟨w, rfl⟩ | ⟨steps, runs⟩
  · simp only [exec, gone]
  · simp only [exec, gone]
  · exact loops_apart gone steps runs

theorem loops_gone_play (gone : s.loops[l]? = some none) (commands : List Command) :
    (s.play commands).loops[l]? = some none := by
  induction commands generalizing s with
  | nil => exact gone
  | cons c rest ih => exact ih (loops_gone gone c)

/-- A loop and its tally go on together, until the loop is run. -/
theorem loops_visitsAll (place : s.loops[l]? = some (some t.loop)) (commands : List Command) :
    (s.play commands).loops[l]? = some (some (t.visitAll (s.visitsAll l commands)).loop)
      ∨ (∃ w, .runLoop l w ∈ commands) ∧ (s.play commands).loops[l]? = some none := by
  induction commands generalizing s t with
  | nil => exact Or.inl place
  | cons c rest ih =>
    rcases loops_visits place c with there | ⟨⟨w, rfl⟩, gone⟩
    · rw [visitsAll, Tally.visitAll_append]
      exact (ih there).imp_right fun ⟨⟨w, member⟩, gone⟩ =>
        ⟨⟨w, List.mem_cons_of_mem _ member⟩, gone⟩
    · exact Or.inr ⟨⟨w, List.mem_cons_self⟩, loops_gone_play gone rest⟩

/-- **The report accounts for every pull.** Wherever a loop is stepped, and whatever happens
between its steps: the ids that its pulls brought are those that it executed, failed and
skipped, and one more if it holds one; executed and failed are the callbacks that it ran,
each with what came of it; and its own entries are one about each failure and each skipped
id, in order, and one about the end (`Tally.Accounts`). A step that fails adds nothing, and
what a run reports is what the tally comes to. In a session, whatever else is done there, a
loop goes on as its tally does. -/
theorem pulls_accounted :
    (∀ stations, let t := Tally.start.visitAll stations
      (∃ services, t.Accounts services)
      ∧ t.pulled.length = t.loop.report.executed.length + t.loop.report.failed.length
        + t.loop.report.skipped.length + (if t.loop.state.held?.isSome then 1 else 0)
      ∧ t.loop.report.executed = succeeded t.ran ∧ t.loop.report.failed = failures t.ran)
    ∧ (∀ (l : DispatchLoop) (s : Station), s.worker.logger.Grows (l.worked s).worker.logger
      ∧ (l.worked s).worker.logger.Grows (l.step s).2.1.worker.logger)
    ∧ (∀ (t : Tally) s e, (t.loop.step s).2.2 = .error e → t.visit s = t)
    ∧ (∀ (t : Tally) s r, (t.loop.run s).2 = .ok r →
      (t.visitAll (t.loop.visited s)).loop = ⟨.drained, r⟩)
    ∧ ∀ h before after,
      let s := (((ofHost h).play before).exec .newLoop).1
      let l := ((ofHost h).play before).loops.length
      let t := Tally.start.visitAll (s.visitsAll l after)
      (s.play after).loops[l]? = some (some t.loop)
        ∨ (∃ w, .runLoop l w ∈ after) ∧ (s.play after).loops[l]? = some none := by
  refine ⟨fun stations => ?_, fun l s => l.grows_worked s, fun t s e => Tally.visit_failed,
    fun t s r => t.loop_visited s, fun h before after => ?_⟩
  · obtain ⟨services, accounts⟩ := Tally.accounts_visitAll Tally.accounts_start stations
    refine ⟨⟨_, accounts⟩, accounts.length_pulled, ?_, ?_⟩
    · rw [accounts.ran, Service.succeeded_outcomes, accounts.executed]
    · rw [accounts.ran, Service.failures_outcomes, accounts.failed]
  · refine loops_visitsAll ?_ after
    exact List.getElem?_concat_length

/-- A worker with a task that ends well, one that fails, and an id of nobody. -/
def threeIds : List Command :=
  [.spawn ⟨"worker", none⟩ none, .register 0 ⟨"good"⟩ [], .register 0 ⟨"bad"⟩ [.fail "no"],
    .call 0 (.push ⟨"foreign"⟩)]

/-- The first pull does not come to the host. One step each settles and ends the loop, three
bring an id and three serve it. -/
theorem pulls_accounted_threeIds :
    let h : Host := { Host.empty with outages := { Host.empty.outages with pulls := 1 } }
    let s := (((ofHost h).play threeIds).exec .newLoop).1
    let steps := List.replicate 9 (Command.stepLoop 0 0)
    let t := Tally.start.visitAll (s.visitsAll 0 steps)
    let pending : Tally := ⟨⟨.pullPending, .empty⟩, [], [], []⟩
    (s.play steps).loops[0]? = some (some t.loop)
    ∧ t.loop = ⟨.drained, [⟨"good"⟩], [(⟨"bad"⟩, "no")], [⟨"foreign"⟩]⟩
    ∧ t.pulled = [⟨"good"⟩, ⟨"bad"⟩, ⟨"foreign"⟩]
    ∧ t.logged.map (·.message) = ["task failed", "pulled task has no callback", "drain finished"]
    ∧ pending.visit DispatchLoop.nestedStation.refusingPull = pending
    ∧ (Tally.start.visitAll (DispatchLoop.start.visited DispatchLoop.nestedStation)).loop
      = ⟨.drained, [⟨"outer"⟩, ⟨"inner"⟩], [], []⟩ := by
  intro h s steps t pending
  have loop : t.loop = ⟨.drained, [⟨"good"⟩], [(⟨"bad"⟩, "no")], [⟨"foreign"⟩]⟩ := by
    decide +kernel
  have pulled : t.pulled = [⟨"good"⟩, ⟨"bad"⟩, ⟨"foreign"⟩] := by decide +kernel
  have messages : t.logged.map (·.message)
      = ["task failed", "pulled task has no callback", "drain finished"] := by decide +kernel
  have refused : (pending.loop.step DispatchLoop.nestedStation.refusingPull).2.2
      = .error (.host .cancelled) := by
    rw [DispatchLoop.step_refusingPull rfl]
  have ran : (DispatchLoop.start.run DispatchLoop.nestedStation).2.toOption
      = some ⟨[⟨"outer"⟩, ⟨"inner"⟩], [], []⟩ := by decide +kernel
  obtain ⟨-, -, fails, reports, goesOn⟩ := pulls_accounted
  refine ⟨?_, loop, pulled, messages, fails pending _ _ refused, ?_⟩
  · rcases goesOn h threeIds steps with there | ⟨⟨w, run⟩, -⟩
    · exact there
    · cases List.eq_of_mem_replicate run
  · cases result : (DispatchLoop.start.run DispatchLoop.nestedStation).2 with
    | error e =>
      rw [result] at ran
      cases ran
    | ok r =>
      rw [result] at ran
      obtain rfl := Option.some.inj ran
      exact reports Tally.start _ _ result

end Session
end TaskHost
