/-
# After a drain there is nothing to do

A drain that comes to a report leaves no timer and no id: settling leaves no timer, a skipped
id sets none, and the last pull has reached the host and found the queue empty
(`DispatchLoop.dry_run`). So the next drain finds nothing to settle and nothing to pull; it
takes a planned repeat at most, and logs that it has finished (`Station.drain_dry`). This
does not depend on the registry, which may still hold callbacks whose ids were lost.

A loop that is drained stays as it is at every station, and in a session nothing but a run,
which ends the loop, takes it away (`Session.loops_exec`).

Key definitions: `Host.Dry`, `Station.Dry`, `Station.redrained`.
Key theorems: `DispatchLoop.dry_run`, `Station.drain_dry`, `Session.exec_redrain`,
`Session.loops_exec`, `Session.drained_is_terminal`.
-/
import TaskHost.Proofs.Echoes
import TaskHost.Proofs.Settlements
import TaskHost.Proofs.SpoiledSessions

namespace TaskHost

/-! ### Hosts without ids -/

namespace Host

variable {h k : Host} {id : ContextId}

/-- Whether a pull for a context reaches the host and finds no id there. -/
structure Dry (id : ContextId) (h : Host) : Prop where
  pulls : h.outages.pulls = 0
  empty : ∃ c, h.context? id = some c ∧ c.queue.ids = []

theorem Dry.pull (dry : h.Dry id) :
    h.pull id = (h.withRepeats (h.faults.repeatPulls - 1), .ok none) := by
  obtain ⟨c, known, empty⟩ := dry.empty
  exact pull_empty known dry.pulls empty

theorem Dry.congr (dry : h.Dry id) (contexts : k.contexts = h.contexts)
    (outages : k.outages = h.outages) : k.Dry id where
  pulls := by
    rw [outages]
    exact dry.pulls
  empty := by
    rw [context?_congr contexts]
    exact dry.empty

/-- A pull that brings no id leaves the host dry. -/
theorem dry_of_pull (pulled : h.pull id = (k, .ok none)) : k.Dry id := by
  by_cases refused : 0 < h.outages.pulls
  · rw [Host.pull, if_pos refused] at pulled
    cases pulled
  · have pulls : h.outages.pulls = 0 := by omega
    cases known : h.context? id with
    | none =>
      have unknown : (h.withRepeats (h.faults.repeatPulls - 1)).context? id = none :=
        (context?_congr rfl id).trans known
      rw [pull_eq_dequeue pulls, dequeue, unknown] at pulled
      cases pulled
    | some c =>
      have brought := (pull_cases (by rw [known]; rfl) pulls).1
      rw [pulled, queuedIds_of_context? known] at brought
      have empty : c.queue.ids = [] := by
        cases ids : c.queue.ids with
        | nil => rfl
        | cons task rest =>
          rw [ids] at brought
          cases brought
      have dry : h.Dry id := ⟨pulls, c, known, empty⟩
      rw [dry.pull] at pulled
      obtain ⟨rfl, -⟩ := Prod.mk.inj pulled
      exact dry.congr rfl rfl

end Host

/-! ### Stations with nothing to do -/

namespace Station

variable {s t : Station}

/-- Whether no timer waits and a pull finds no id. -/
structure Dry (s : Station) : Prop where
  settled : s.worker.bridge.timers.waiting = []
  host : s.host.Dry s.context

/-- The station after a drain that found nothing to do: a planned repeat is used up, the
entry about the drain is logged, with nothing to count, and printed if the log's threshold
lets it be. -/
def redrained (s : Station) : Station :=
  let source := s.worker.logger.source
  let worker := match source with
    | some w => " worker " ++ w.short
    | none => ""
  { host := { s.host with
      faults := { s.host.faults with repeatPulls := s.host.faults.repeatPulls - 1 }
      output := s.host.output
        ++ if LogLevel.info.atLeast s.worker.logger.threshold then
          [⟨"[info]" ++ worker ++ " drain finished executed=0 failed=0 skipped=0\n", false⟩]
        else [] }
    worker := { s.worker with logger := { s.worker.logger with
      entries := s.worker.logger.entries ++ [⟨.info, source, "drain finished",
        [("executed", "0"), ("failed", "0"), ("skipped", "0")]⟩] } }
    journal := s.journal ++ [.pulled none] }

theorem dry_of_pull (pulled : s.pull = (t, .ok none)) : t.host.Dry t.context := by
  unfold pull at pulled
  split at pulled
  · next h task found =>
    obtain ⟨rfl, brought⟩ := Prod.mk.inj pulled
    obtain rfl := Except.ok.inj brought
    exact Host.dry_of_pull found
  · cases pulled

theorem Dry.log (dry : s.Dry) (e : LogEntry) : (s.log e).Dry where
  settled := dry.settled
  host := by
    refine dry.host.congr ?_ ?_
    · simp only [Station.log, Logger.log]
      split <;> rfl
    · simp only [Station.log, Logger.log]
      split <;> rfl

theorem render_finished (source : Option WorkerId) : (LogEntry.finished source 0 0 0).render
    = "[info]" ++ (match source with | some w => " worker " ++ w.short | none => "")
      ++ " drain finished executed=0 failed=0 skipped=0\n" := by
  have counts : String.join ((LogEntry.finished source 0 0 0).fields.map LogEntry.renderField)
      = " executed=0 failed=0 skipped=0" := rfl
  have level : "[" ++ "info" ++ "]" = "[info]" := rfl
  have rest : " " ++ ("drain finished" ++ (" executed=0 failed=0 skipped=0" ++ "\n"))
      = " drain finished executed=0 failed=0 skipped=0\n" := rfl
  show "[" ++ "info" ++ "]" ++ _ ++ " " ++ "drain finished" ++ String.join _ ++ "\n" = _
  rw [counts, level]
  simp only [String.append_assoc, rest]
  rfl

/-- A drain that finds nothing to do. -/
theorem drain_dry (dry : s.Dry) : s.drain = (s.redrained, .ok .empty) := by
  have settled : DispatchLoop.start.step s = (⟨.pullPending, .empty⟩, s, .ok ()) := by
    rw [DispatchLoop.step, DispatchLoop.start, settle_quiet dry.settled]
  have pulled : s.pull = ({ s with host := s.host.withRepeats (s.host.faults.repeatPulls - 1) }.note
      (.pulled none), .ok none) := pull_eq dry.host.pull
  have logged : (({ s with host := s.host.withRepeats (s.host.faults.repeatPulls - 1) } : Station).note
      (.pulled none)).log (.drainFinished .empty) = s.redrained := by
    rw [log_eq, redrained, ← render_finished]
    rfl
  unfold drain
  rw [DispatchLoop.run_step (fun h => by cases h) settled, DispatchLoop.run_dry pulled, logged]

end Station

/-! ### The end of a drain -/

namespace DispatchLoop

variable {l k : DispatchLoop} {s t : Station}

theorem waiting_runTask (answered : s.Answered) (task : TaskId) (body : Body) :
    (s.runTask task body).1.worker.bridge.timers.waiting = [] := by
  let first := (s.beginTask task).note (.began (.task task) (some task) (some task) body)
  have begins : first.Answered := answered
  have ran := Station.answered_deeds begins
    (Station.deeds_runBody (some task) (Body.obeys_any body) first)
  exact Station.waiting_settle (s := (first.runBody (some task) body).1.note _) ran (some task)

/-- When a pulled id was dispatched, no timer waits, if none did before: an id that is
skipped sets no timer. -/
theorem waiting_dispatch (l : DispatchLoop) (answered : s.Answered)
    (none : s.worker.bridge.timers.waiting = []) (task : TaskId) :
    (l.dispatch s task).2.worker.bridge.timers.waiting = [] := by
  unfold dispatch
  split
  · exact none
  · next body u taken =>
    have answered' : u.Answered := by
      rw [← show (s.takeCallback task).2 = u from congrArg Prod.snd taken]
      exact answered
    have ran := waiting_runTask answered' task body
    split
    · next v h => rw [h] at ran; exact ran
    · next v e h => rw [h] at ran; exact ran

/-- Nothing waits after a step that succeeds, if nothing did before it or the step settles;
and when the step ends the loop, the station is dry. -/
theorem settled_step (answered : s.Answered)
    (settled : l.state = .idle ∨ s.worker.bridge.timers.waiting = [])
    (stepped : l.step s = (k, t, .ok ())) :
    t.worker.bridge.timers.waiting = []
      ∧ (l.state ≠ .drained → k.state = .drained → t.Dry) := by
  obtain ⟨state, report⟩ := l
  cases state with
  | idle =>
    obtain ⟨rfl, rest⟩ := Prod.mk.inj stepped
    obtain ⟨rfl, -⟩ := Prod.mk.inj rest
    exact ⟨Station.waiting_settle answered none, fun _ ended => by cases ended⟩
  | pullPending =>
    have none : s.worker.bridge.timers.waiting = [] := settled.resolve_left fun h => by cases h
    have worker := View.worker_pull s
    simp only [step] at stepped
    cases pulled : s.pull with
    | mk u result =>
      rw [pulled] at stepped worker
      have waiting : u.worker.bridge.timers.waiting = [] := by
        rw [worker]
        exact none
      cases result with
      | error e => cases stepped
      | ok brought =>
        cases brought with
        | some task =>
          obtain ⟨rfl, rest⟩ := Prod.mk.inj stepped
          obtain ⟨rfl, -⟩ := Prod.mk.inj rest
          exact ⟨waiting, fun _ ended => by cases ended⟩
        | none =>
          obtain ⟨rfl, rest⟩ := Prod.mk.inj stepped
          obtain ⟨rfl, -⟩ := Prod.mk.inj rest
          exact ⟨waiting, fun _ _ => Station.Dry.log ⟨waiting, Station.dry_of_pull pulled⟩ _⟩
  | dispatching task =>
    have none : s.worker.bridge.timers.waiting = [] := settled.resolve_left fun h => by cases h
    have pulls := state_dispatch ⟨.dispatching task, report⟩ s task
    obtain ⟨rfl, rest⟩ := Prod.mk.inj stepped
    obtain ⟨rfl, -⟩ := Prod.mk.inj rest
    refine ⟨waiting_dispatch ⟨.dispatching task, report⟩ answered none task, fun _ ended => ?_⟩
    cases pulls.symm.trans ended
  | drained =>
    have none : s.worker.bridge.timers.waiting = [] := settled.resolve_left fun h => by cases h
    obtain ⟨rfl, rest⟩ := Prod.mk.inj stepped
    obtain ⟨rfl, -⟩ := Prod.mk.inj rest
    exact ⟨none, fun busy => absurd rfl busy⟩

/-- A run that comes to a report leaves the station dry. -/
theorem dry_run (l : DispatchLoop) (answered : s.Answered) (busy : l.state ≠ .drained)
    (settled : l.state = .idle ∨ s.worker.bridge.timers.waiting = []) {r : DrainReport}
    (ended : (l.run s).2 = .ok r) : (l.run s).1.Dry := by
  fun_induction run l s with
  | case1 l s drained => exact absurd drained busy
  | case2 l s pending k t e stepped => cases ended
  | case3 l s pending k t stepped ih =>
    have answered' := View.answered_moves answered (View.moves_step [] [] l s.obeys_any)
    rw [stepped] at answered'
    obtain ⟨waiting, dry⟩ := settled_step answered settled stepped
    by_cases drained : k.state = .drained
    · rw [run_drained drained]
      exact dry pending drained
    · exact ih answered' drained (Or.inr waiting) ended

theorem step_drained (drained : l.state = .drained) (s : Station) : l.step s = (l, s, .ok ()) := by
  obtain ⟨state, report⟩ := l
  obtain rfl := drained
  rfl

end DispatchLoop

theorem Station.dry_drain {s : Station} (answered : s.Answered) {r : DrainReport}
    (ended : s.drain.2 = .ok r) : s.drain.1.Dry :=
  DispatchLoop.dry_run .start answered (fun h => by cases h) (Or.inl rfl) ended

/-! ### Sessions -/

namespace Session

variable {s t : Session} {l w : Nat}

theorem answered_play (h : Host) (commands : List Command) : ((ofHost h).play commands).Answered := by
  induction commands using List.reverseRecOn with
  | nil => exact fun i worker member => by cases member
  | append_singleton commands c ih =>
    rw [play_concat]
    exact answered_exec ih c

/-- A law under which no loop is stepped. -/
def Law.stepless : Law := { Law.any with steps := fun _ _ => False }

theorem loops_change {L : Law} (stepless : ∀ l w, ¬ L.steps l w) (change : Change L s t)
    {loop : Option DispatchLoop} (place : s.loops[l]? = some loop) : t.loops[l]? = some loop := by
  cases change with
  | looped host workers loops journal =>
    rw [loops, List.getElem?_append_left (List.getElem?_eq_some_iff.mp place).1]
    exact place
  | turned i l' worker loop' next u member there allowed moves rests host workers loops journal =>
    exact absurd allowed (stepless l' i)
  | idle host contexts workers loops journal => exact loops ▸ place
  | spawned handle worker new serial host contexts workers loops journal => exact loops ▸ place
  | adopted handle worker new allowed host workers loops journal => exact loops ▸ place
  | worked i worker u member moves rests host workers loops journal => exact loops ▸ place

theorem set_self {α : Type} {xs : List α} {i : Nat} {x : α} (there : xs[i]? = some x) :
    xs.set i x = xs := by
  obtain ⟨bound, rfl⟩ := List.getElem?_eq_some_iff.mp there
  exact List.set_getElem_self bound

/-- A step of a drained loop changes nothing at all. -/
theorem stepLoop_drained {loop : DispatchLoop} (place : s.loops[l]? = some (some loop))
    (drained : loop.state = .drained) (w : Nat) :
    (s.exec (.stepLoop l w)).1 = s
      ∧ (s.workers[w]?.isSome → (s.exec (.stepLoop l w)).2 = .state .drained) := by
  simp only [exec, place]
  cases member : s.workers[w]? with
  | none =>
    rw [atStation_absent member]
    exact ⟨rfl, fun present => by cases present⟩
  | some worker =>
    rw [atStation_member member, DispatchLoop.step_drained drained]
    refine ⟨?_, fun _ => ?_⟩
    · simp only [set_self place, set_self member, List.map_nil, List.append_nil]
    · simp only [drained]

theorem loops_byLoop (s : Session) (l w : Nat)
    (act : DispatchLoop → Station → Station × Option DispatchLoop × Reply) :
    (s.byLoop l w act).1.loops = s.loops
      ∨ ∃ loop st, (s.byLoop l w act).1.loops = s.loops.set l (act loop st).2.1 := by
  obtain same | ⟨loop, worker, -, -, acted⟩ := byLoop_cases s l w act
  · exact .inl (congrArg Session.loops same)
  · exact .inr ⟨loop, _, congrArg Session.loops acted⟩

theorem exec_loop_cases (c : Command) (l : Nat) :
    (∃ w, c = .stepLoop l w) ∨ (∃ w, c = .runLoop l w)
      ∨ (∀ w, c ≠ .stepLoop l w) ∧ ∀ w, c ≠ .runLoop l w := by
  by_cases steps : ∃ w, c = .stepLoop l w
  · exact .inl steps
  · by_cases runs : ∃ w, c = .runLoop l w
    · exact .inr (.inl runs)
    · exact .inr (.inr ⟨not_exists.mp steps, not_exists.mp runs⟩)

/-- A loop that a command neither steps nor runs stays as it is. -/
theorem loops_apart {place : Option DispatchLoop} (there : s.loops[l]? = some place) {c : Command}
    (steps : ∀ w, c ≠ .stepLoop l w) (runs : ∀ w, c ≠ .runLoop l w) :
    (s.exec c).1.loops[l]? = some place := by
  have other (stepless : c.Obeys Law.stepless) : (s.exec c).1.loops[l]? = some place :=
    loops_change (fun _ _ h => h) (change_exec (fun _ _ _ => Station.obeys_any _) stepless) there
  have elsewhere {k : Nat} (apart : k ≠ l) (w : Nat)
      (act : DispatchLoop → Station → Station × Option DispatchLoop × Reply) :
      (s.byLoop k w act).1.loops[l]? = some place := by
    obtain kept | ⟨loop, st, changed⟩ := loops_byLoop s k w act
    · rw [kept]
      exact there
    · rw [changed, List.getElem?_set_ne apart]
      exact there
  cases c with
  | stepLoop k w =>
    rw [exec_stepLoop]
    exact elsewhere (fun same => steps w (by rw [same])) w byStep
  | runLoop k w =>
    rw [exec_runLoop]
    exact elsewhere (fun same => runs w (by rw [same])) w byRun
  | register i task body => exact other (Body.obeys_any body)
  | setTimeout i delay body => exact other (Body.obeys_any body)
  | _ => exact other trivial

theorem loops_run {loop : DispatchLoop} (place : s.loops[l]? = some (some loop)) (w : Nat) :
    (s.exec (.runLoop l w)).1.loops[l]? = some (some loop)
      ∨ (s.exec (.runLoop l w)).1.loops[l]? = some none := by
  rw [exec_runLoop]
  obtain kept | ⟨ended, st, changed⟩ := loops_byLoop s l w byRun
  · rw [kept]
    exact Or.inl place
  · rw [changed]
    exact Or.inr (List.getElem?_set_self (List.getElem?_eq_some_iff.mp place).1)

/-- A drained loop stays in its place, unless it is run, which ends it. -/
theorem loops_exec {loop : DispatchLoop} (place : s.loops[l]? = some (some loop))
    (drained : loop.state = .drained) (c : Command) :
    (s.exec c).1.loops[l]? = some (some loop)
      ∨ (∃ w, c = .runLoop l w) ∧ (s.exec c).1.loops[l]? = some none := by
  rcases exec_loop_cases c l with ⟨w, rfl⟩ | ⟨w, rfl⟩ | ⟨steps, runs⟩
  · rw [(stepLoop_drained place drained w).1]
    exact Or.inl place
  · exact (loops_run place w).imp_right fun ended => ⟨⟨w, rfl⟩, ended⟩
  · exact Or.inl (loops_apart place steps runs)

theorem loops_play {loop : DispatchLoop} (place : s.loops[l]? = some (some loop))
    (drained : loop.state = .drained) (commands : List Command) :
    (s.play commands).loops[l]? = some (some loop) ∨ ∃ w, .runLoop l w ∈ commands := by
  induction commands using List.reverseRecOn with
  | nil => exact Or.inl place
  | append_singleton commands c ih =>
    rw [play_concat]
    rcases ih with there | ⟨w, run⟩
    · rcases loops_exec there drained c with stays | ⟨⟨w, rfl⟩, -⟩
      · exact Or.inl stays
      · exact Or.inr ⟨w, List.mem_append_right _ List.mem_cons_self⟩
    · exact Or.inr ⟨w, List.mem_append_left _ run⟩

/-- A drain after a drain that came to a report. -/
theorem exec_redrain (answered : s.Answered) {r : DrainReport}
    (ended : (s.exec (.drain w)).2 = .report r) :
    ((s.exec (.drain w)).1.exec (.drain w))
      = (s.exec (.drain w)).1.byWorker w fun st => (st.redrained, .report .empty) := by
  cases member : s.workers[w]? with
  | none =>
    simp only [exec, byWorker, atStation_absent member] at ended
    cases ended
  | some worker =>
    let u := (⟨s.host, worker, []⟩ : Station).drain
    let t : Session := { s with
      host := u.1.host
      workers := s.workers.set w u.1.worker
      journal := s.journal ++ u.1.journal.map fun o => (w, o) }
    have first : s.exec (.drain w) = (t, drainReply u.2) := by
      simp only [exec, byWorker, atStation_member member]
      rfl
    rw [first] at ended ⊢
    have report : u.2 = .ok r := by
      cases result : u.2 with
      | ok k =>
        rw [result] at ended
        exact congrArg Except.ok (Reply.report.inj ended)
      | error e =>
        rw [result] at ended
        cases ended
    have left := Station.dry_drain (answered w worker member) report
    have again : (⟨t.host, u.1.worker, []⟩ : Station).drain = _ :=
      Station.drain_dry ⟨left.settled, left.host⟩
    have there : t.workers[w]? = some u.1.worker :=
      List.getElem?_set_self (List.getElem?_eq_some_iff.mp member).1
    simp only [exec, byWorker, atStation_member there, again, drainReply]

/-- **Drained is terminal, and draining is idempotent.** If a drain of any worker of any
session comes to a report, the next drain reports nothing and only uses up a planned repeat,
if there is one, and logs that it has finished. And a loop that is drained stays as it is,
whatever the session does, unless it is run, which ends it; each step of it says that it is
drained and changes nothing in the whole session. -/
theorem drained_is_terminal :
    (∀ h commands w r, (((ofHost h).play commands).exec (.drain w)).2 = .report r →
      let t := (((ofHost h).play commands).exec (.drain w)).1
      t.exec (.drain w) = t.byWorker w fun st => (st.redrained, .report .empty))
    ∧ ∀ (s : Session) (l : Nat) (loop : DispatchLoop), s.loops[l]? = some (some loop) →
      loop.state = .drained → ∀ commands,
        let t := s.play commands
        (t.loops[l]? = some (some loop) ∨ ∃ w, .runLoop l w ∈ commands)
        ∧ (t.loops[l]? = some (some loop) → ∀ w, (t.exec (.stepLoop l w)).1 = t
          ∧ (t.workers[w]?.isSome → (t.exec (.stepLoop l w)).2 = .state .drained)) := by
  constructor
  · intro h commands w r ended
    exact exec_redrain (answered_play h commands) ended
  · intro s l loop place drained commands
    exact ⟨loops_play place drained commands, fun there w => stepLoop_drained there drained w⟩

/-- A registration whose id the host loses, and a loop that is stepped until it is drained,
by a worker whose log prints information. -/
def lostRegistration : List Command :=
  [.spawn ⟨"worker", none⟩ (some .info), .newLoop, .register 0 ⟨"lost"⟩ [], .stepLoop 0 0,
    .stepLoop 0 0]

theorem report_of_report? {reply : Reply} {r : DrainReport} (told : reply.report? = some r) :
    reply = .report r := by
  cases reply with
  | report k => exact congrArg Reply.report (Option.some.inj told)
  | _ => cases told

/-- The first drain uses one of the three repeats up after the loop has used one, the second
drain the last; the callback whose id was lost stays. New work does not wake the loop. -/
theorem drained_is_terminal_lostRegistration :
    let h : Host := { Host.empty with faults := ⟨3, 0, 0, 1⟩ }
    let s := (ofHost h).play lostRegistration
    let t := (s.exec (.drain 0)).1
    let u := s.play [.register 0 ⟨"new"⟩ [], .setTimeout 0 (.ofNanos 1) [.fail "late"]]
    (s.exec (.drain 0)).2 = .report .empty
    ∧ t.exec (.drain 0) = (t.byWorker 0 fun st => (st.redrained, .report .empty))
    ∧ (t.host.faults.repeatPulls, (t.exec (.drain 0)).1.host.faults.repeatPulls) = (1, 0)
    ∧ (t.exec (.drain 0)).1.workers[0]?.map (·.registry.ids) = some [⟨"lost"⟩]
    ∧ (t.exec (.drain 0)).1.workers[0]?.map (fun worker => worker.logger.entries)
      = t.workers[0]?.map (fun worker => worker.logger.entries ++ [⟨.info, none, "drain finished",
        [("executed", "0"), ("failed", "0"), ("skipped", "0")]⟩])
    ∧ (t.exec (.drain 0)).1.host.output
      = t.host.output ++ [⟨"[info] drain finished executed=0 failed=0 skipped=0\n", false⟩]
    ∧ (u.exec (.stepLoop 0 0)).1 = u ∧ (u.exec (.stepLoop 0 0)).2 = .state .drained := by
  intro h s t u
  have told : (s.exec (.drain 0)).2.report? = some .empty := by decide +kernel
  have first := report_of_report? told
  have stepped : s.loops[0]? = some (some ⟨.drained, .empty⟩) := by decide +kernel
  have present : u.workers[0]?.isSome := by decide +kernel
  have there : u.loops[0]? = some (some ⟨.drained, .empty⟩) := by decide +kernel
  obtain ⟨redrain, stays⟩ := drained_is_terminal
  obtain ⟨-, still⟩ := stays s 0 _ stepped rfl
    [.register 0 ⟨"new"⟩ [], .setTimeout 0 (.ofNanos 1) [.fail "late"]]
  obtain ⟨same, state⟩ := still there 0
  exact ⟨first, redrain h lostRegistration 0 .empty first, by decide +kernel, by decide +kernel,
    by decide +kernel, by decide +kernel, same, state present⟩

end Session
end TaskHost
