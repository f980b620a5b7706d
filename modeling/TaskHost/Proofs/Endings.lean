/-
# Every drain ends

A step of a dispatch loop has loops inside: a pause waits until its timer has fired,
and settling polls until no timer is waiting. `Station.BodyEnds` and
`Station.SettleEnds` say that all of them end, with what `Station.runBody` and
`Station.settle` give; neither counts drives or rounds beforehand. On a host that
schedules all timers they hold for every callback (`DispatchLoop.stepEnds`), whatever
the callback registers, sets or pushes.

A loop that is stepped by itself comes to its end, because every step takes
something away from `DispatchLoop.measure` (`DispatchLoop.steps_run`). How many steps
it takes can be read off its report, even if others act between the steps
(`DispatchLoop.Turns.taken`).

Key definitions: `Station.BodyEnds`, `Station.SettleEnds`, `DispatchLoop.StepEnds`,
`DispatchLoop.Steps`, `DispatchLoop.Turns`, `DispatchLoop.taken`.
Key theorems: `Station.settleEnds`, `DispatchLoop.stepEnds`, `DispatchLoop.steps_run`,
`DispatchLoop.Turns.taken`, `Session.drain_ends`.
-/
import TaskHost.Proofs.Blocks
import TaskHost.Proofs.Runs
import TaskHost.Proofs.Waits

namespace TaskHost

/-- A pause ends: after some drives its timer has fired. -/
def Host.SleepEnds (h : Host) (delay : Duration) : Prop :=
  ∃ n, Waits (h.setTimeout delay).2 n (h.setTimeout delay).1 (h.sleep delay).1 (h.sleep delay).2

theorem Host.sleepEnds (h : Host) (delay : Duration) : h.SleepEnds delay := by
  obtain ⟨n, -, waits⟩ := waits_await (answers_setTimeout h delay)
  exact ⟨n, waits⟩

namespace Station

variable {s t : Station}

/-! ### What ends inside a step -/

/-- Carrying an action out ends: if it pauses, the pause does. -/
def ActEnds (s : Station) : Action → Prop
  | .call (.sleep delay) => s.host.SleepEnds delay
  | .pause delay => s.host.SleepEnds delay
  | .attempt a => s.ActEnds a
  | _ => True

/-- Running a callback ends: carrying out each of its actions does. -/
inductive BodyEnds (scope : Option TaskId) : Body → Station → Prop
  | nil (s : Station) : BodyEnds scope [] s
  | next {a : Action} {rest : Body} {s : Station} (ends : s.ActEnds a)
      (more : ((s.perform scope a).2.isOk ∨ a.isAttempt) →
        BodyEnds scope rest (s.perform scope a).1) : BodyEnds scope (a :: rest) s

/-- Running timers that are handed out ends: the callbacks of those that fired do. -/
inductive TimersEnd (origin : Option TaskId) : List (ReadyTimer Body) → Station → Prop
  | nil (s : Station) : TimersEnd origin [] s
  | next {r : ReadyTimer Body} {rest : List (ReadyTimer Body)} {s : Station}
      (ends : r.result = .ok () → BodyEnds origin r.callback
        (s.note (.began (.timer r.id) origin s.worker.registry.running r.callback)))
      (more : TimersEnd origin rest (s.runTimer origin r).1) : TimersEnd origin (r :: rest) s

/-- Polling ends: after some drives timers are ready, or none is waiting. -/
def PollEnds (s : Station) : Prop :=
  ∃ n, Bridge.Polls n s.worker.bridge s.host s.poll.1 s.poll.2.worker.bridge s.poll.2.host

/-- Settling ends: after some rounds, each of which ends, a poll hands out nothing. -/
inductive SettleEnds (origin : Option TaskId) : Station → Prop
  | settled {s : Station} (polled : s.PollEnds) (none : s.poll.1 = []) : SettleEnds origin s
  | round {s : Station} (polled : s.PollEnds) (some : s.poll.1 ≠ [])
      (ran : TimersEnd origin s.poll.1 s.poll.2)
      (rest : SettleEnds origin (s.settleRound origin).1) : SettleEnds origin s

theorem actEnds (s : Station) : ∀ a : Action, s.ActEnds a
  | .call c => by
    cases c with
    | sleep delay => exact s.host.sleepEnds delay
    | _ => trivial
  | .pause delay => s.host.sleepEnds delay
  | .attempt a => s.actEnds a
  | .mark _ | .who | .register _ _ | .setTimeout _ _ | .console _ _ | .log _ | .fail _ => trivial

theorem bodyEnds (scope : Option TaskId) (body : Body) (s : Station) : BodyEnds scope body s := by
  induction body generalizing s with
  | nil => exact .nil s
  | cons a rest ih => exact .next (s.actEnds a) fun _ => ih _

theorem timersEnd (origin : Option TaskId) (ready : List (ReadyTimer Body)) (s : Station) :
    TimersEnd origin ready s := by
  induction ready generalizing s with
  | nil => exact .nil s
  | cons r rest ih => exact .next (fun _ => bodyEnds origin r.callback _) (ih _)

theorem pollEnds (hs : s.Attended) : s.PollEnds := by
  obtain ⟨n, -, polls⟩ := Bridge.polls_poll hs.answered
  exact ⟨n, polls⟩

/-- Settling ends, whatever the callbacks of the timers set or register. -/
theorem settleEnds (origin : Option TaskId) (hs : s.Attended) : SettleEnds origin s := by
  fun_induction settle origin s with
  | case1 s s' hp => exact .settled (pollEnds hs) (by rw [hp])
  | case2 s r rest s' hp ran more ih =>
    have polled : Deeds HostCall.Any s s.poll.2 := .single (.poll s)
    have round : Deeds HostCall.Any s.poll.2 (s.settleRound origin).1 :=
      deeds_runTimers origin (fun q _ => Body.obeys_any q.callback) s.poll.2
    have after : (s.settleRound origin).1 = ran.1 := by
      rw [settleRound, hp]
    rw [← after] at ih
    exact .round (pollEnds hs) (by rw [hp]; exact List.cons_ne_nil r rest)
      (timersEnd origin s.poll.1 s.poll.2) (ih (attended_deeds hs (polled.trans round)))

/-- Running a pulled task ends: its callback does, and then settling its timers. -/
structure TaskEnds (s : Station) (task : TaskId) (body : Body) : Prop where
  callback : BodyEnds (some task) body
    ((s.beginTask task).note (.began (.task task) (some task) (some task) body))
  timers : SettleEnds (some task)
    ((s.beginTask task).runCallback (.task task) (some task) body).1

theorem taskEnds (hs : s.Attended) (task : TaskId) (body : Body) : s.TaskEnds task body := by
  let begun : Station :=
    (s.beginTask task).note (.began (.task task) (some task) (some task) body)
  have begins : begun.Attended := ⟨hs.outages, hs.scheduled, hs.answered⟩
  have ran := attended_deeds begins (deeds_runBody (some task) (Body.obeys_any body) begun)
  exact ⟨bodyEnds (some task) body begun,
    settleEnds (some task) ⟨ran.outages, ran.scheduled, ran.answered⟩⟩

end Station

/-- The number of ids that a report tells of. -/
def DrainReport.size (r : DrainReport) : Nat := r.ran + r.skipped.length

namespace DispatchLoop

variable {l k : DispatchLoop} {s t : Station} {n : Nat}

/-- A step of a loop ends: settling does, or running the task that the loop holds. -/
def StepEnds (l : DispatchLoop) (s : Station) : Prop :=
  match l.state with
  | .idle => s.SettleEnds none
  | .dispatching task => ∀ body, s.worker.registry.callback? task = some body →
      (s.takeCallback task).2.TaskEnds task body
  | _ => True

theorem stepEnds (l : DispatchLoop) (hs : s.Attended) : l.StepEnds s := by
  unfold StepEnds
  split
  · exact Station.settleEnds none hs
  · next task holds =>
    intro body registered
    have taken : (s.takeCallback task).2.Attended := ⟨hs.outages, hs.scheduled, hs.answered⟩
    exact Station.taskEnds taken task body
  · trivial

/-! ### Stepping to the end -/

/-- Steps of a loop that is not drained, one after the other; each of them ends and
succeeds. -/
inductive Steps : Nat → DispatchLoop → Station → DispatchLoop → Station → Prop
  | done (l : DispatchLoop) (s : Station) : Steps 0 l s l s
  | step {n : Nat} {l k m : DispatchLoop} {s t u : Station} (pending : l.state ≠ .drained)
      (ends : l.StepEnds s) (stepped : l.step s = (k, t, .ok ())) (rest : Steps n k t m u) :
      Steps (n + 1) l s m u

/-- How a loop stops: it is drained, or its pull fails. -/
inductive Stops (l : DispatchLoop) (s : Station) : Station → Except DispatchError DrainReport → Prop
  | drained (state : l.state = .drained) : Stops l s s (.ok l.report)
  | refused {t : Station} {e : DispatchError} (state : l.state = .pullPending)
      (failed : l.step s = (l, t, .error e)) : Stops l s t (.error e)

theorem Steps.measure_le (h : Steps n l s k t) : n + k.measure t ≤ l.measure s := by
  induction h with
  | done l s => omega
  | step pending ends stepped rest ih =>
    have closer := measure_step_lt _ _ pending (by rw [stepped])
    rw [stepped] at closer
    simp only at closer
    omega

/-- A loop that is stepped alone stops, and a run of it stops there. -/
theorem steps_run (l : DispatchLoop) (hs : s.Attended) :
    ∃ n k t, Steps n l s k t ∧ Stops k t (l.run s).1 (l.run s).2 := by
  fun_induction run l s with
  | case1 l s hl => exact ⟨0, l, s, .done l s, .drained hl⟩
  | case2 l s hl k t e h =>
    obtain ⟨pending, rfl, -⟩ := View.step_eq_error h
    exact ⟨0, k, s, .done k s, .refused pending h⟩
  | case3 l s hl k t h ih =>
    have moved := View.attended_moves hs (View.moves_step [] [] l s.obeys_any)
    rw [h] at moved
    obtain ⟨n, m, u, rest, stops⟩ := ih moved
    exact ⟨n + 1, m, u, .step hl (stepEnds l hs) h rest, stops⟩

/-! ### Counting steps -/

/-- Steps of a loop that is not drained, each of which succeeds, while others act
between them: every step may find another station. -/
inductive Turns : Nat → DispatchLoop → DispatchLoop → Prop
  | done (l : DispatchLoop) : Turns 0 l l
  | turn {n : Nat} {l k : DispatchLoop} (s : Station) (pending : l.state ≠ .drained)
      (succeeds : (l.step s).2.2 = .ok ()) (rest : Turns n (l.step s).1 k) : Turns (n + 1) l k

/-- The number of steps that a loop has made, each of which succeeded: one settles,
then two serve each id, and the last one finds no id. -/
def taken (l : DispatchLoop) : Nat :=
  match l.state with
  | .idle => 2 * l.report.size
  | .pullPending => 1 + 2 * l.report.size
  | .dispatching _ => 2 + 2 * l.report.size
  | .drained => 2 + 2 * l.report.size

theorem size_skip (r : DrainReport) (task : TaskId) : (r.skip task).size = r.size + 1 := by
  simp only [DrainReport.size, DrainReport.ran, DrainReport.skip, List.length_append,
    List.length_singleton]
  omega

theorem size_execute (r : DrainReport) (task : TaskId) : (r.execute task).size = r.size + 1 := by
  simp only [DrainReport.size, DrainReport.ran, DrainReport.execute, List.length_append,
    List.length_singleton]
  omega

theorem size_fail (r : DrainReport) (task : TaskId) (e : TaskError) :
    (r.fail task e).size = r.size + 1 := by
  simp only [DrainReport.size, DrainReport.ran, DrainReport.fail, List.length_append,
    List.length_singleton]
  omega

theorem size_dispatch (l : DispatchLoop) (s : Station) (task : TaskId) :
    (l.dispatch s task).1.report.size = l.report.size + 1 := by
  unfold dispatch
  split
  · exact size_skip l.report task
  · split
    · exact size_execute l.report task
    · exact size_fail l.report task _

/-- A step that succeeds counts, wherever it is made. -/
theorem taken_step (s : Station) (pending : l.state ≠ .drained)
    (succeeds : (l.step s).2.2 = .ok ()) : (l.step s).1.taken = l.taken + 1 := by
  obtain ⟨state, report⟩ := l
  cases state with
  | idle => exact Nat.add_comm _ _
  | pullPending =>
    simp only [step] at succeeds ⊢
    split at succeeds
    · cases succeeds
    · next t task h =>
      simp only [taken]
      omega
    · next t h =>
      simp only [taken]
      omega
  | dispatching task =>
    have state := state_dispatch ⟨.dispatching task, report⟩ s task
    have size := size_dispatch ⟨.dispatching task, report⟩ s task
    simp only [step, taken, state, size]
    omega
  | drained => exact absurd rfl pending

/-- Every turn counts. -/
theorem Turns.taken (h : Turns n l k) : k.taken = l.taken + n := by
  induction h with
  | done l => rfl
  | turn s pending succeeds rest ih =>
    rw [ih, taken_step s pending succeeds]
    omega

theorem Steps.turns (h : Steps n l s k t) : Turns n l k := by
  induction h with
  | done l s => exact .done l
  | step pending ends stepped rest ih =>
    refine .turn _ pending (by rw [stepped]) ?_
    rw [stepped]
    exact ih

/-- A loop that was begun and is drained has made two steps for every id that it
reports, and two more. -/
theorem Turns.count (h : Turns n .start l) (drained : l.state = .drained) :
    n = 2 + 2 * l.report.size := by
  have begun : start.taken = 0 := rfl
  have ended : l.taken = 2 + 2 * l.report.size := by rw [DispatchLoop.taken, drained]
  rw [← ended, h.taken, begun, Nat.zero_add]

end DispatchLoop

namespace Session

/-- Every drain of every worker ends. Wherever a session has come to, on a host that
schedules all timers and whatever faults are planned, a new loop is drained after
finitely many steps, or a pull fails; every step ends, with all settling, polling and
waiting in it. The drain comes to the same end. A drained loop has made exactly two
steps for every id that it reports, and two more, even if others act between its
steps. -/
theorem drain_ends {h : Host} (timers : h.outages.timers = 0) (commands : List Command) {w : Nat}
    {worker : Worker} (member : ((ofHost h).play commands).workers[w]? = some worker) :
    let s : Station := ⟨((ofHost h).play commands).host, worker, []⟩
    (∃ n l t, DispatchLoop.Steps n .start s l t ∧ n ≤ 2 * s.potential + 2
      ∧ DispatchLoop.Stops l t s.drain.1 s.drain.2
      ∧ (l.state = .drained → n = 2 + 2 * l.report.size))
    ∧ ∀ n l, DispatchLoop.Turns n .start l → l.state = .drained → n = 2 + 2 * l.report.size := by
  have attended := (tended_play timers commands).attended w worker member
  obtain ⟨n, l, t, steps, stops⟩ := DispatchLoop.steps_run .start attended
  have bounded := steps.measure_le
  rw [DispatchLoop.measure] at bounded
  refine ⟨⟨n, l, t, steps, ?_, stops, steps.turns.count⟩, fun n l turns => turns.count⟩
  exact Nat.le_trans (Nat.le_add_right n _) bounded

/-- A task that sets a timer, waits and registers another task. -/
def pausingTask : List Command :=
  [.spawn ⟨"worker", none⟩ none, .register 0 ⟨"first"⟩
    [.setTimeout (.ofNanos 5) [.pause (.ofNanos 1)], .pause (.ofNanos 9), .register ⟨"second"⟩ []]]

/-- With one repeated pull three ids are pulled: the loop is drained after eight steps. -/
theorem drain_ends_pausingTask :
    let h : Host := { Host.empty with faults := ⟨1, 0, 0, 0⟩ }
    ∃ worker, ((ofHost h).play pausingTask).workers[0]? = some worker
      ∧ ∃ l t, DispatchLoop.Steps 8 .start
        ⟨((ofHost h).play pausingTask).host, worker, []⟩ l t ∧ l.state = .drained := by
  intro h
  have present : ((ofHost h).play pausingTask).workers[0]?.isSome := by decide +kernel
  obtain ⟨worker, member⟩ := Option.isSome_iff_exists.mp present
  obtain ⟨⟨n, l, t, steps, -, stops, count⟩, -⟩ := drain_ends rfl pausingTask member
  have reported : ((ofHost h).play pausingTask).workers[0]?.map (fun worker =>
      (⟨((ofHost h).play pausingTask).host, worker, []⟩ : Station).drain.2.toOption.map
        DrainReport.size) = some (some 3) := by decide +kernel
  rw [member, Option.map_some, Option.some.injEq] at reported
  generalize Station.drain _ = ending at stops reported
  obtain ⟨last, result⟩ := ending
  cases stops with
  | refused state failed => cases reported
  | drained state =>
    have size : l.report.size = 3 := Option.some.inj reported
    obtain rfl : n = 8 := by rw [count state, size]
    exact ⟨worker, member, l, last, steps, state⟩

end Session
end TaskHost
