/-
# A run, step by step

What a run of a loop comes to when its next step is known: a loop that is drained ends, a
pull that brings nothing ends the run with an entry about it, and after a pull that brings
an id the run goes on from the dispatch of this id.

Key theorems: `Station.settle_quiet`, `DispatchLoop.run_step`, `DispatchLoop.run_pulled`,
`DispatchLoop.run_dry`, `DispatchLoop.dispatch_executed`, `DispatchLoop.dispatch_leaves`,
`DispatchLoop.dispatch_unregistered`.
-/
import TaskHost.Worker.Dispatch

namespace TaskHost

/-- Settling does nothing when no timer is waiting. -/
theorem Station.settle_quiet {s : Station} (quiet : s.worker.bridge.timers.waiting = [])
    (origin : Option TaskId) : s.settle origin = (s, 0) := by
  have polled : s.poll = ([], s) := by
    unfold Station.poll Bridge.poll Bridge.pollWithin
    rw [quiet]
    rfl
  unfold Station.settle
  split
  · next t h =>
    rw [polled] at h
    rw [(Prod.mk.inj h).2]
  · next r ready t h =>
    rw [polled] at h
    cases h

namespace DispatchLoop

variable {l k : DispatchLoop} {s t : Station} {task : TaskId} {r : DrainReport}

theorem step_of_result {result : Except DispatchError Unit} (came : (l.step s).2.2 = result) :
    l.step s = ((l.step s).1, (l.step s).2.1, result) :=
  Prod.ext rfl (Prod.ext rfl came)

theorem run_drained (drained : l.state = .drained) : l.run s = (s, .ok l.report) := by
  rw [run, dif_pos drained]

theorem run_step (pending : l.state ≠ .drained) (stepped : l.step s = (k, t, .ok ())) :
    l.run s = k.run t := by
  rw [run, dif_neg pending]
  split
  · next h => rw [stepped] at h; cases h
  · next h =>
    rw [stepped] at h
    obtain ⟨next, rest⟩ := Prod.mk.inj h
    obtain ⟨after, -⟩ := Prod.mk.inj rest
    rw [next, after]

/-- A run of a loop that is about to pull, when the pull brings an id. -/
theorem run_pulled (pulled : s.pull = (t, .ok (some task))) :
    run ⟨.pullPending, r⟩ s = (dispatch ⟨.dispatching task, r⟩ t task).1.run
      (dispatch ⟨.dispatching task, r⟩ t task).2 := by
  have pull : step ⟨.pullPending, r⟩ s = (⟨.dispatching task, r⟩, t, .ok ()) := by
    simp only [step, pulled]
  have serve : step ⟨.dispatching task, r⟩ t = ((dispatch ⟨.dispatching task, r⟩ t task).1,
      (dispatch ⟨.dispatching task, r⟩ t task).2, .ok ()) := rfl
  rw [run_step (fun h => by cases h) pull, run_step (fun h => by cases h) serve]

/-- A run of a loop that is about to pull, when the pull brings none. -/
theorem run_dry (pulled : s.pull = (t, .ok none)) :
    run ⟨.pullPending, r⟩ s = (t.log (.drainFinished r), .ok r) := by
  have pull : step ⟨.pullPending, r⟩ s
      = (⟨.drained, r⟩, t.log (.drainFinished r), .ok ()) := by
    simp only [step, pulled]
  rw [run_step (fun h => by cases h) pull, run_drained rfl]

/-! ### Dispatches -/

theorem state_dispatch (l : DispatchLoop) (s : Station) (task : TaskId) :
    (l.dispatch s task).1.state = .pullPending := by
  unfold dispatch
  split
  · rfl
  · split <;> rfl

/-- The dispatch of an id that has no callback. -/
theorem dispatch_unregistered (unregistered : s.worker.registry.callback? task = none) :
    dispatch ⟨.dispatching task, r⟩ s task
      = (⟨.pullPending, r.skip task⟩, s.log (.taskSkipped task)) := by
  have taken : s.takeCallback task = (none, (s.takeCallback task).2) := Prod.ext unregistered rfl
  unfold dispatch
  rw [taken]

/-- The dispatch of an id whose callback succeeds. -/
theorem dispatch_executed {body : Body}
    (registered : s.worker.registry.callback? task = some body)
    (ran : (s.takeCallback task).2.runTask task body = (t, .ok ())) :
    l.dispatch s task = (⟨.pullPending, l.report.execute task⟩, t) := by
  have taken : s.takeCallback task = (some body, (s.takeCallback task).2) := Prod.ext registered rfl
  unfold dispatch
  rw [taken]
  simp only [ran]

theorem dispatch_failed {body : Body} {e : TaskError}
    (registered : s.worker.registry.callback? task = some body)
    (ran : (s.takeCallback task).2.runTask task body = (t, .error e)) :
    l.dispatch s task
      = (⟨.pullPending, l.report.fail task e⟩, t.log (.taskFailed task e)) := by
  have taken : s.takeCallback task = (some body, (s.takeCallback task).2) := Prod.ext registered rfl
  unfold dispatch
  rw [taken]
  simp only [ran]

/-- A dispatch leaves the registry and the journal that the callback left; at most it has
logged an entry since. -/
theorem dispatch_leaves {body : Body}
    (registered : s.worker.registry.callback? task = some body) :
    (l.dispatch s task).2.worker.registry
        = ((s.takeCallback task).2.runTask task body).1.worker.registry
      ∧ (l.dispatch s task).2.journal = ((s.takeCallback task).2.runTask task body).1.journal := by
  cases ran : (s.takeCallback task).2.runTask task body with
  | mk t result =>
    cases result with
    | ok u =>
      rw [dispatch_executed registered ran]
      exact ⟨rfl, rfl⟩
    | error e =>
      rw [dispatch_failed registered ran]
      exact ⟨rfl, rfl⟩

end DispatchLoop
end TaskHost
