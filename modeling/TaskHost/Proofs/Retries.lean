/-
# A failed pull can be tried again

A pull that is kept from the host fails, and the loop stays where it is. Somebody who
steps the loop again after every failure, until it is drained, gets what a run gets in
which no pull fails (`DispatchLoop.retry_eq_run`). A plan tells which of the pulls of the
loop are kept from the host; pulls that callbacks make are none of these, and reach the
host.

Key definitions: `Station.refusingPull`, `DispatchLoop.retry`, `Station.Reaches`.
Key theorems: `DispatchLoop.step_eq_error_facts`, `DispatchLoop.retry_eq_run`,
`DispatchLoop.failed_pull_loses_nothing`.
-/
import TaskHost.Proofs.Blocks
import TaskHost.Proofs.Runs

namespace TaskHost

variable {l k : DispatchLoop} {s t : Station}

/-- A pull that fails takes at most a planned fault or an outage from the host. -/
theorem Host.pull_eq_error {h k : Host} {id : ContextId} {e : HostError}
    (failed : h.pull id = (k, .error e)) :
    ∃ faults outages, k = { h with faults := faults, outages := outages } := by
  unfold pull at failed
  split at failed
  · obtain ⟨rfl, -⟩ := Prod.mk.inj failed
    exact ⟨h.faults, _, rfl⟩
  · rw [unqueueTask_eq, dequeue] at failed
    split at failed
    · obtain ⟨rfl, -⟩ := Prod.mk.inj failed
      exact ⟨_, _, rfl⟩
    · split at failed <;> cases failed

/-! ### Stepping again -/

namespace Station

/-- The station when the next pull does not come to the host. -/
def refusingPull (s : Station) : Station :=
  { s with host := { s.host with outages := { s.host.outages with
      pulls := s.host.outages.pulls + 1 } } }

theorem pull_refusingPull (s : Station) : s.refusingPull.pull = (s, .error .cancelled) := by
  have refused : s.refusingPull.host.pull s.context = (s.host, .error .cancelled) := by
    unfold Host.pull
    rw [if_pos (show 0 < s.refusingPull.host.outages.pulls from Nat.succ_pos _)]
    rfl
  unfold Station.pull
  rw [show s.refusingPull.context = s.context from rfl, refused]
  rfl

/-- Whether pulls come to the host, and the host knows the context. -/
structure Reaches (s : Station) : Prop where
  known : (s.host.context? s.context).isSome
  outages : s.host.outages.pulls = 0

theorem Reaches.keeps (reaches : s.Reaches) (keeps : s.Keeps t) : t.Reaches := by
  obtain ⟨c, hc⟩ := Option.isSome_iff_exists.mp reaches.known
  obtain ⟨d, hd, -⟩ := keeps.host.known s.context c hc
  exact ⟨keeps.context ▸ Option.isSome_iff_exists.mpr ⟨d, hd⟩,
    Nat.le_zero.mp (reaches.outages ▸ keeps.host.refusedPulls)⟩

theorem Reaches.pull (reaches : s.Reaches) : ∃ task, s.pull.2 = .ok task := by
  rw [(View.host_pull s).1, (Host.pull_cases reaches.known reaches.outages).1]
  exact ⟨_, rfl⟩

end Station

namespace DispatchLoop

theorem step_succeeds (busy : l.state ≠ .pullPending) : (l.step s).2.2 = .ok () := by
  cases hs : (l.step s).2.2 with
  | ok u => rfl
  | error e =>
    have failed := step_of_result hs
    exact absurd (View.step_eq_error failed).1 busy

/-- Steps until the loop is drained, and steps again after a pull that failed. For the
pulls to come, `plan` tells whether they are kept from the host; when it has come to its
end all of them reach the host. -/
def retry (plan : List Bool) (l : DispatchLoop) (s : Station) :
    Station × Except DispatchError DrainReport :=
  match plan with
  | [] => l.run s
  | refused :: rest =>
    if _drained : l.state = .drained then (s, .ok l.report)
    else if _pulls : l.state = .pullPending then
      let next := l.step (if refused then s.refusingPull else s)
      retry rest next.1 next.2.1
    else
      let next := l.step s
      retry (refused :: rest) next.1 next.2.1
termination_by (plan.length, l.measure s)
decreasing_by
  · exact Prod.Lex.left _ _ (Nat.lt_succ_self rest.length)
  · exact Prod.Lex.right _ (measure_step_lt l s _drained (step_succeeds _pulls))

/-! ### What a failure changes -/

/-- A step that fails leaves the loop, the worker and its journal; of the host it takes
at most a planned fault or an outage. -/
theorem step_eq_error_facts {e : DispatchError} (failed : l.step s = (k, t, .error e)) :
    l.state = .pullPending ∧ k = l
      ∧ ∃ faults outages, t = { s with host := { s.host with faults := faults, outages := outages } } := by
  obtain ⟨state, rfl, error, rfl, pulled⟩ := View.step_eq_error failed
  refine ⟨state, rfl, ?_⟩
  unfold Station.pull at pulled
  split at pulled
  · cases pulled
  · next h _ unanswered =>
    obtain ⟨rfl, -⟩ := Prod.mk.inj pulled
    obtain ⟨faults, outages, rfl⟩ := Host.pull_eq_error unanswered
    exact ⟨faults, outages, rfl⟩

theorem step_refusingPull (pulls : l.state = .pullPending) :
    l.step s.refusingPull = (l, s, .error (.host .cancelled)) := by
  obtain ⟨state, report⟩ := l
  obtain rfl := pulls
  simp only [step, Station.pull_refusingPull]

theorem step_reaches (reaches : s.Reaches) (l : DispatchLoop) :
    (l.step s).2.2 = .ok () ∧ (l.step s).2.1.Reaches := by
  refine ⟨?_, reaches.keeps (View.keeps_moves (View.moves_step [] [] l s.obeys_any))⟩
  cases hs : (l.step s).2.2 with
  | ok u => rfl
  | error e =>
    have failed := step_of_result hs
    obtain ⟨-, -, error, -, pulled⟩ := View.step_eq_error failed
    obtain ⟨task, ok⟩ := reaches.pull
    rw [pulled] at ok
    cases ok

theorem run_reaches (reaches : s.Reaches) (l : DispatchLoop) : ∃ r, (l.run s).2 = .ok r := by
  fun_induction run l s with
  | case1 l s drained => exact ⟨l.report, rfl⟩
  | case2 l s pending k t e failed =>
    have succeeds := (step_reaches reaches l).1
    rw [failed] at succeeds
    cases succeeds
  | case3 l s pending k t stepped ih =>
    have reaches' := (step_reaches reaches l).2
    rw [stepped] at reaches'
    exact ih reaches'

/-- Failures of pulls make no difference. -/
theorem retry_eq_run (reaches : s.Reaches) (plan : List Bool) (l : DispatchLoop) :
    l.retry plan s = l.run s := by
  fun_induction retry plan l s with
  | case1 l s => rfl
  | case2 l s refused rest drained => exact (run_drained drained).symm
  | case3 l s refused rest drained pulls next ih =>
    cases refused with
    | true =>
      have same : next = (l, s, .error (.host .cancelled)) := step_refusingPull pulls
      rw [same] at ih ⊢
      exact ih reaches
    | false =>
      obtain ⟨succeeds, reaches'⟩ := step_reaches reaches l
      exact (ih reaches').trans (run_step drained (step_of_result succeeds)).symm
  | case4 l s refused rest drained pulls next ih =>
    obtain ⟨succeeds, reaches'⟩ := step_reaches reaches l
    exact (ih reaches').trans (run_step drained (step_of_result succeeds)).symm

/-- **A failed pull loses nothing.** A step that fails leaves the loop about to pull, with
its report, and the station with the worker, its journal, the clock, the timers and the
queues. And where pulls can reach the host, whatever pulls of the loop are kept from it:
stepping again after every failure comes to the end of the run in which none of them is,
with the same report, at the same station. -/
theorem failed_pull_loses_nothing (l : DispatchLoop) (s : Station) :
    (∀ k t e, l.step s = (k, t, .error e) → k.state = .pullPending ∧ k = l
      ∧ ∃ faults outages, t = { s with host := { s.host with faults := faults, outages := outages } })
    ∧ ((s.host.context? s.context).isSome → s.host.outages.pulls = 0 →
      ∃ t r, l.run s = (t, .ok r) ∧ ∀ plan, l.retry plan s = (t, .ok r)) := by
  refine ⟨fun k t e failed => ?_, fun known outages => ?_⟩
  · obtain ⟨state, rfl, rest⟩ := step_eq_error_facts failed
    exact ⟨state, rfl, rest⟩
  · have reaches : s.Reaches := ⟨known, outages⟩
    obtain ⟨r, ends⟩ := run_reaches reaches l
    exact ⟨(l.run s).1, r, Prod.ext rfl ends, fun plan =>
      (retry_eq_run reaches plan l).trans (Prod.ext rfl ends)⟩

/-- A worker that has registered a task, which registers another one. -/
def nestedStation : Station :=
  let s : Station := ⟨(Host.empty.spawn ⟨"worker", none⟩).1,
    .ofHandle ⟨.spawned 0, none, "worker"⟩, []⟩
  (s.register ⟨"outer"⟩ [.register ⟨"inner"⟩ []]).1

/-- The first pull fails, and then the third and the fourth. -/
theorem failed_pull_loses_nothing_nestedStation :
    (nestedStation.host.context? nestedStation.context).isSome
      ∧ nestedStation.host.outages.pulls = 0
      ∧ (start.retry [true, false, true, true] nestedStation).2
        = .ok ⟨[⟨"outer"⟩, ⟨"inner"⟩], [], []⟩ := by
  have known : (nestedStation.host.context? nestedStation.context).isSome := by decide +kernel
  have outages : nestedStation.host.outages.pulls = 0 := by decide +kernel
  have drained : (start.run nestedStation).2.toOption
      = some ⟨[⟨"outer"⟩, ⟨"inner"⟩], [], []⟩ := by decide +kernel
  obtain ⟨t, r, ran, retried⟩ := (failed_pull_loses_nothing start nestedStation).2 known outages
  rw [ran] at drained
  refine ⟨known, outages, ?_⟩
  rw [retried]
  exact congrArg Except.ok (Option.some.inj drained)

end DispatchLoop
end TaskHost
