/-
# A registration happens as a whole or not at all

A task is registered in two places: its callback in the registry, and its id in a
queue of the host. A registration that fails, whether the registry or the host
refuses it, changes neither. One that succeeds changes both, and nothing else,
unless a planned fault loses the id on the way to the queue.

Key theorems: `Host.contexts_of_registerTask_error`, `Host.registerTask_ok`,
`Registry.register_all_or_nothing`.
-/
import TaskHost.Proofs.Queues
import TaskHost.Proofs.Registries

namespace TaskHost

theorem FaultCounts.takeDroppedRegistration_of_none {c : FaultCounts} (h : c.droppedRegistrations = 0) :
    c.takeDroppedRegistration.2 = c := by
  cases c
  simp_all [takeDroppedRegistration]

namespace Host

variable {h k : Host} {id : ContextId} {task : TaskId}

/-- A call to queue an id fails and changes nothing, loses the id and changes
nothing, or changes the context it is for. -/
theorem enqueue_cases (h : Host) (lost : Bool) (id : ContextId) (task : TaskId) :
    (∃ e, h.enqueue lost id task = (h, .error e))
      ∨ (lost = true ∧ h.enqueue lost id task = (h, .ok ()))
      ∨ (lost = false ∧ ∃ f, h.enqueue lost id task = (h.modifyContext id f, .ok ())) := by
  unfold enqueue
  cases h.context? id with
  | none => exact Or.inl ⟨_, rfl⟩
  | some c =>
    cases lost with
    | true => exact Or.inr (Or.inl ⟨rfl, rfl⟩)
    | false =>
      cases hq : c.queue.push? task with
      | none => exact Or.inl ⟨.duplicateTask task, by simp [hq]⟩
      | some q => exact Or.inr (Or.inr ⟨rfl, fun c => { c with queue := q }, by simp [hq]⟩)

/-- The host that a registration finds once it has passed the outages and asked for
a planned fault. -/
def asked (h : Host) : Host := h.passRegistration.withFaults h.faults.takeDroppedRegistration.2

theorem registerTask_eq (h : Host) (id : ContextId) (task : TaskId) :
    h.registerTask id task =
      if 0 < h.outages.registrations then (h.passRegistration, .error .cancelled)
      else h.asked.enqueue h.losesNext id task := rfl

/-- A registration that the host refuses changes no context. -/
theorem contexts_of_registerTask_error {e : HostError} (hr : h.registerTask id task = (k, .error e)) :
    k.contexts = h.contexts := by
  rw [registerTask_eq] at hr
  split at hr
  · obtain ⟨rfl, -⟩ := Prod.mk.inj hr
    rfl
  · rcases h.asked.enqueue_cases h.losesNext id task with ⟨e, done⟩ | ⟨-, done⟩ | ⟨-, f, done⟩
    all_goals rw [done, Prod.mk.injEq] at hr
    · obtain ⟨rfl, -⟩ := hr
      rfl
    · cases hr.2
    · cases hr.2

/-- A registration that the host takes up puts the id at the end of the queue, or
uses up a planned fault and puts it nowhere. -/
theorem registerTask_ok (hr : h.registerTask id task = (k, .ok ())) :
    (k.queuedIds id = h.queuedIds id ++ [task] ∧ k.faults = h.faults)
      ∨ (k.contexts = h.contexts
        ∧ h.faults.droppedRegistrations = k.faults.droppedRegistrations + 1) := by
  have queue := queuedIds_of_registerTask_ok hr
  rw [registerTask_eq] at hr
  split at hr
  · cases (Prod.mk.inj hr).2
  · rcases h.asked.enqueue_cases h.losesNext id task with ⟨e, done⟩ | ⟨lost, done⟩ | ⟨kept, f, done⟩
    all_goals rw [done, Prod.mk.injEq] at hr
    · cases hr.2
    · obtain ⟨rfl, -⟩ := hr
      have planned : 0 < h.faults.droppedRegistrations := of_decide_eq_true lost
      exact Or.inr ⟨rfl, (Nat.sub_add_cancel planned).symm⟩
    · obtain ⟨rfl, -⟩ := hr
      have unplanned : h.faults.droppedRegistrations = 0 :=
        Nat.eq_zero_of_not_pos (of_decide_eq_false kept)
      have faults : h.faults.takeDroppedRegistration.2 = h.faults :=
        FaultCounts.takeDroppedRegistration_of_none unplanned
      rcases queue with ⟨lost, -⟩ | ⟨-, -, queued⟩
      · exact absurd (kept.symm.trans lost) (by decide)
      · exact Or.inl ⟨queued, (faults_modifyContext h.asked id f).trans faults⟩

end Host

namespace Registry

variable {φ : Type}

/-- A registration that fails leaves the registry and every context of the host as
they were. One that succeeds adds the callback of the task, which had none, and
its id at the end of the queue of the context, which a planned fault may prevent
as it is used up; other callbacks, the running task and other contexts stay. -/
theorem register_all_or_nothing (r : Registry φ) (h : Host) (context : ContextId) (task : TaskId)
    (callback : φ) :
    match r.register h context task callback with
    | (s, k, .error _) => s = r ∧ k.contexts = h.contexts
    | (s, k, .ok ()) =>
      r.callback? task = none
        ∧ (∀ key, s.callback? key = if key = task then some callback else r.callback? key)
        ∧ s.running = r.running
        ∧ (∀ key, key ≠ context → k.context? key = h.context? key)
        ∧ ((k.queuedIds context = h.queuedIds context ++ [task] ∧ k.faults = h.faults)
          ∨ (k.contexts = h.contexts
            ∧ h.faults.droppedRegistrations = k.faults.droppedRegistrations + 1)) := by
  have evolves := Host.evolves_registerTask h context task
  rw [register_eq]
  cases refusal : r.refusal? task with
  | some e => exact ⟨rfl, rfl⟩
  | none =>
    cases hr : h.registerTask context task with
    | mk k result =>
      rw [hr] at evolves
      cases result with
      | error e => exact ⟨rfl, Host.contexts_of_registerTask_error hr⟩
      | ok u =>
        have fresh := callback?_eq_none_of_refusal? refusal
        exact ⟨fresh, callback?_add fresh, rfl, evolves.others, Host.registerTask_ok hr⟩

end Registry
end TaskHost
