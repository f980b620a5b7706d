/-
# A worker with a context of its own

A worker that nobody shares a context with, on a host without faults, and whose
callbacks make no raw pushes and pulls, is in lockstep with its queue at every
moment of every session (`Session.registry_matches_queue`): between commands,
between the steps of its loops, and inside its callbacks. At its beginning
registry, queue and loops are empty, and every step keeps the lockstep.

Key theorems: `View.Fresh.lockstep`, `Session.distinct_of_reaches`,
`Session.registry_matches_queue`.
-/
import TaskHost.Proofs.Histories
import TaskHost.Proofs.Lockstep

namespace TaskHost
namespace View

variable {law : HostCall → Prop} {v w : View}

/-- A new worker is in lockstep. -/
theorem Fresh.lockstep (fresh : v.Fresh)
    (faultless : v.station.host.Faultless v.station.context) : v.Lockstep := by
  have held : v.held = [] := by
    refine List.filterMap_eq_nil_iff.mpr fun l hl => ?_
    rw [fresh.loops l hl]
    rfl
  refine ⟨faultless, ⟨?_, ?_⟩, fun l hl => ?_⟩
  · rw [fresh.queue, held, fresh.registry]
    exact .nil
  · rw [fresh.queue, held]
    exact .nil
  · rw [fresh.loops l hl]
    rfl

theorem Fresh.distinct (fresh : v.Fresh) : v.station.Distinct := by
  refine ⟨?_, ?_⟩
  · rw [fresh.registry]
    exact .nil
  · rw [fresh.queue]
    exact .nil

theorem Fresh.obeys (fresh : v.Fresh) : v.station.Obeys law := by
  intro b hb
  rw [Worker.bodies, fresh.registry, fresh.timers] at hb
  cases hb

theorem obeys_path (hv : v.station.Obeys law) (h : Path law v w) : w.station.Obeys law := by
  induction h with
  | refl => exact hv
  | tail _ step ih =>
    cases step with
    | move h => exact obeys_move ih h
    | elsewhere loops s h later same => exact ih

theorem Lockstep.of_journal {loops : List DispatchLoop} {s : Station} (journal : List Occurrence)
    (hs : Lockstep ⟨loops, s⟩) : Lockstep ⟨loops, { s with journal := journal }⟩ :=
  ⟨hs.faultless, hs.paired.congr rfl rfl, hs.skipped⟩

/-- In lockstep, neither a new loop nor one that is there comes to skip an id. -/
theorem Lockstep.run_skipped {loops : List DispatchLoop} {s : Station}
    (spares : ∀ c, law c → c.SparesQueue) (hs : Lockstep ⟨loops, s⟩) (obeys : s.Obeys law)
    {l : DispatchLoop} (hl : l = .start ∨ l ∈ loops) {report : DrainReport}
    (ran : (l.run s).2 = .ok report) : report.skipped = [] := by
  have placed : ∃ pre post, Lockstep ⟨pre ++ l :: post, s⟩ := by
    rcases hl with rfl | hl
    · exact ⟨[], loops, lockstep_move spares hs (.enter [] loops s)⟩
    · obtain ⟨pre, post, rfl⟩ := List.append_of_mem hl
      exact ⟨pre, post, hs⟩
  obtain ⟨pre, post, before⟩ := placed
  obtain ⟨k, -, moved, result⟩ := moves_run pre post l obeys
  have after := lockstep_path spares before (path_of_moves moved)
  rw [← result report ran]
  exact after.skipped k (List.mem_append_right _ List.mem_cons_self)

end View

namespace Session

variable {L : Law} {owner : Nat → Nat} {h : Host} {w : Nat} {v : View}

/-- No session registers or queues an id twice, whatever faults the host shows. -/
theorem distinct_of_reaches (owns : ∀ l i, L.steps l i → owner l = i)
    (reached : Reaches L owner h w v) : v.station.Distinct := by
  obtain ⟨u, fresh, -, path⟩ := reached.path owns
  exact View.distinct_path fresh.distinct path

/-- A worker with a context of its own, on a host without faults: the registered
tasks are the queued ids and those that loops hold, each once; a registration is
refused only for the registry's own reasons; and no loop skips an id, neither by
steps nor by a run. -/
theorem registry_matches_queue (repeats : h.faults.repeatPulls = 0)
    (drops : h.faults.droppedRegistrations = 0) (registrations : h.outages.registrations = 0)
    (owns : ∀ l i, L.steps l i → owner l = i) (spares : ∀ c, L.calls w c → c.SparesQueue)
    (reached : Reaches L owner h w v) :
    v.station.worker.registry.tasks.Perm (v.station.queue ++ v.held)
    ∧ (v.station.queue ++ v.held).Nodup
    ∧ (∀ task body, (v.station.register task body).2
      = if task ∈ v.station.worker.registry.tasks then .error (.duplicateTask task)
        else if v.station.worker.registry.running = some task then .error (.taskRunning task)
        else .ok ())
    ∧ (∀ l ∈ v.loops, l.report.skipped = [])
    ∧ ∀ l, l = .start ∨ l ∈ v.loops → ∀ journal report,
      (l.run { v.station with journal := journal }).2 = .ok report → report.skipped = [] := by
  obtain ⟨u, fresh, later, path⟩ := reached.path owns
  have faultless : u.station.host.Faultless u.station.context :=
    { known := fresh.known
      repeats := Nat.le_zero.mp (repeats ▸ later.repeats)
      drops := Nat.le_zero.mp (drops ▸ later.drops)
      registrations := Nat.le_zero.mp (registrations ▸ later.refusedRegistrations) }
  have lockstep := View.lockstep_path spares (fresh.lockstep faultless) path
  refine ⟨lockstep.paired.tasks, lockstep.paired.nodup, ?_, lockstep.skipped, ?_⟩
  · exact lockstep.paired.register_result lockstep.faultless
  · intro l hl journal report ran
    have obeys := View.obeys_path fresh.obeys path
    exact (lockstep.of_journal journal).run_skipped spares obeys hl ran

/-- A worker whose callbacks neither push nor pull. -/
def discreetWorker : Law := ⟨fun _ c => c.SparesQueue, fun _ i => i = 0, fun _ => False⟩

/-- A loop holds a task while another one is registered. -/
def heldTask : List Command :=
  [.spawn ⟨"worker", none⟩ none, .register 0 ⟨"first"⟩ [], .newLoop, .stepLoop 0 0, .stepLoop 0 0,
    .register 0 ⟨"second"⟩ []]

theorem obeys_heldTask : ∀ c ∈ heldTask, c.Obeys discreetWorker := by
  intro c hc
  simp only [heldTask, List.mem_cons, List.not_mem_nil, or_false] at hc
  rcases hc with rfl | rfl | rfl | rfl | rfl | rfl <;> trivial

/-- The held id can be registered as little as the queued one. -/
theorem registry_matches_queue_heldTask :
    ∃ v, Reaches discreetWorker (fun _ => 0) .empty 0 v
    ∧ v.station.queue = [⟨"second"⟩] ∧ v.held = [⟨"first"⟩]
    ∧ ∀ body, (v.station.register ⟨"first"⟩ body).2 = .error (.duplicateTask ⟨"first"⟩) := by
  let s := (ofHost .empty).play heldTask
  have present : s.workers[0]?.isSome := by decide +kernel
  obtain ⟨worker, member⟩ := Option.isSome_iff_exists.mp present
  have reached : Reaches discreetWorker (fun _ => 0) .empty 0 (s.view (fun _ => 0) 0 worker) :=
    .intro heldTask worker obeys_heldTask member (fun _ h => h.elim) .refl
  have facts : s.workers[0]?.map (fun w => (s.host.queuedIds w.bridge.context, w.registry.tasks))
      = some ([⟨"second"⟩], [⟨"first"⟩, ⟨"second"⟩]) := by decide +kernel
  rw [member] at facts
  obtain ⟨queue, tasks⟩ := Prod.mk.inj (Option.some.inj facts)
  have held : View.heldBy (loopsOf (fun _ => 0) 0 0 s.loops) = [⟨"first"⟩] := by decide +kernel
  obtain ⟨-, -, result, -⟩ := registry_matches_queue rfl rfl rfl
    (fun l i (h : i = 0) => h.symm) (fun c hc => hc) reached
  refine ⟨_, reached, queue, held, fun body => ?_⟩
  have registered : (⟨"first"⟩ : TaskId) ∈ worker.registry.tasks := by
    rw [tasks]
    exact List.mem_cons_self
  rw [result]
  exact if_pos registered

end Session
end TaskHost
