/-
# Exactly-once dispatch

However a host misbehaves, and whatever a session does with its workers, the
callbacks that are invoked for a task are the accepted registrations of this task,
each once and in order, and the last of them may still be in the registry. A
registered task whose id was not lost is queued, or held by a loop; so when queue
and loops are empty all registrations are invoked, except those whose ids were
lost (`Session.exactly_once`). These are dormant: they are not invoked until their
ids come to the queue in another way. Pushing such an id wakes its callback
(`Session.lost_registration_invoked`).

Key theorems: `Session.exactly_once`.
-/
import TaskHost.Proofs.Accounts
import TaskHost.Proofs.Histories

namespace TaskHost

theorem View.Fresh.accounted {v : View} (fresh : v.Fresh) : v.station.Accounted v.held where
  counts task := by
    rw [fresh.journal, fresh.registry]
    rfl
  kept task hc := by
    rw [fresh.registry] at hc
    cases hc

namespace Session

variable {L : Law} {owner : Nat → Nat} {h : Host} {w : Nat} {v : View}

/-- Exactly-once dispatch, for every host with its planned faults and outages. Only
loops pull, and each loop is stepped at one worker. -/
theorem exactly_once (owns : ∀ l i, L.steps l i → owner l = i) (noPull : ¬ L.calls w .pull)
    (reached : Reaches L owner h w v) :
    (∀ task, (registrationsOf task v.station.journal).map Prod.fst
      = invocationsOf task v.station.journal
        ++ (v.station.worker.registry.callback? task).toList)
    ∧ (∀ task, (v.station.worker.registry.callback? task).isSome → ∀ body,
      (registrationsOf task v.station.journal).getLast? = some (body, false) →
      task ∈ v.station.queue ∨ task ∈ v.held)
    ∧ (v.station.queue = [] → v.held = [] → ∀ (task : TaskId) (i : Nat) (body : Body),
      (registrationsOf task v.station.journal)[i]? = some (body, false) →
      (invocationsOf task v.station.journal)[i]? = some body)
    ∧ ∀ task body, v.station.worker.registry.callback? task = some body →
      task ∉ v.station.queue → task ∉ v.held →
      ∀ u, View.Path (fun c => L.calls w c ∧ c ≠ .push task) v u →
        u.station.worker.registry.callback? task = some body
        ∧ invocationsOf task u.station.journal = invocationsOf task v.station.journal := by
  obtain ⟨u, fresh, -, path⟩ := reached.path owns
  have accounted := View.accounted_path noPull fresh.accounted path
  refine ⟨accounted.counts, accounted.kept, fun queue free task i body => ?_, ?_⟩
  · exact accounted.invoked queue free
  · intro task body pending unqueued unheld u path
    have dormant := View.dormant_path (fun allowed => allowed.2 rfl)
      ⟨pending, unqueued, unheld, rfl⟩ path
    exact ⟨dormant.pending, dormant.invocations⟩

/-- A session with one worker, all calls of its own but pulls. -/
def soleWorker : Law := ⟨fun _ c => c ≠ .pull, fun _ i => i = 0, fun _ => False⟩

/-- A worker drains a task whose callback registers another. -/
def nestedTasks : List Command :=
  [.spawn ⟨"worker", none⟩ none, .register 0 ⟨"first"⟩ [.register ⟨"second"⟩ []], .drain 0]

theorem obeys_nestedTasks : ∀ c ∈ nestedTasks, c.Obeys soleWorker := by
  intro c hc
  simp only [nestedTasks, List.mem_cons, List.not_mem_nil, or_false] at hc
  rcases hc with rfl | rfl | rfl
  · trivial
  · simp [Command.Obeys, Body.Obeys, Action.Obeys]
  · trivial

/-- What is registered while a worker drains is invoked before the drain ends. -/
theorem exactly_once_nestedTasks : ∃ v, Reaches soleWorker (fun _ => 0) .empty 0 v
    ∧ v.station.queue = [] ∧ v.held = []
    ∧ (registrationsOf ⟨"second"⟩ v.station.journal).map Prod.snd = [false]
    ∧ ∀ (i : Nat) (body : Body),
      (registrationsOf ⟨"second"⟩ v.station.journal)[i]? = some (body, false) →
      (invocationsOf ⟨"second"⟩ v.station.journal)[i]? = some body := by
  let s := (ofHost .empty).play nestedTasks
  have present : s.workers[0]?.isSome := by decide +kernel
  obtain ⟨worker, member⟩ := Option.isSome_iff_exists.mp present
  have reached : Reaches soleWorker (fun _ => 0) .empty 0 (s.view (fun _ => 0) 0 worker) :=
    .intro nestedTasks worker obeys_nestedTasks member (fun _ h => h.elim) .refl
  have context : s.workers[0]?.map (fun w => w.bridge.context) = some (.spawned 0) := by
    decide +kernel
  rw [member] at context
  have queue : (s.view (fun _ => 0) 0 worker).station.queue = [] := by
    have here : worker.bridge.context = .spawned 0 := Option.some.inj context
    show s.host.queuedIds worker.bridge.context = []
    rw [here]
    decide +kernel
  have held : View.heldBy (loopsOf (fun _ => 0) 0 0 s.loops) = [] := by decide +kernel
  have registered : (registrationsOf ⟨"second"⟩ (journalOf 0 s.journal)).map Prod.snd = [false] := by
    decide +kernel
  have noPull : ¬ soleWorker.calls 0 .pull := fun h => h rfl
  obtain ⟨-, -, completed, -⟩ := exactly_once (fun l i (h : i = 0) => h.symm) noPull reached
  exact ⟨_, reached, queue, held, registered, completed queue held ⟨"second"⟩⟩

/-- A registration whose id was lost is invoked after all, once the id is pushed. -/
theorem lost_registration_invoked :
    let h : Host := { Host.empty with faults := ⟨0, 0, 0, 1⟩ }
    let commands : List Command := [.spawn ⟨"worker", none⟩ none, .register 0 ⟨"task"⟩ [],
      .call 0 (.push ⟨"task"⟩), .drain 0]
    let journal := journalOf 0 ((ofHost h).play commands).journal
    (∀ c ∈ commands, c.Obeys soleWorker)
      ∧ (registrationsOf ⟨"task"⟩ journal).map Prod.snd = [true]
      ∧ (invocationsOf ⟨"task"⟩ journal).length = 1 := by
  refine ⟨?_, by decide +kernel, by decide +kernel⟩
  intro c hc
  simp only [List.mem_cons, List.not_mem_nil, or_false] at hc
  rcases hc with rfl | rfl | rfl | rfl
  · trivial
  · exact trivial
  · exact fun e => by cases e
  · trivial

end Session
end TaskHost
