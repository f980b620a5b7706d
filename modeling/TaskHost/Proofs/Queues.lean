/-
# What the host does to a queue

The only operations that change the ids queued for a context are registrations
and pulls of this context. A registration that succeeds either puts a new id at
the end or, by a planned fault, loses it. A pull that succeeds gives out the first
id, which by a planned fault may stay, or finds the queue empty.

Key theorems: `Host.queuedIds_of_registerTask_ok`, `Host.registerTask_eq_ok`,
`Host.pull_cases`, `Host.queuedIds_pull`.
-/
import TaskHost.Proofs.Later

namespace TaskHost
namespace Host

/-- The next registration that reaches the host is lost. -/
abbrev losesNext (h : Host) : Bool := h.faults.takeDroppedRegistration.1

theorem losesNext_eq_false {h : Host} (hd : h.faults.droppedRegistrations = 0) :
    h.losesNext = false := by
  simp [losesNext, FaultCounts.takeDroppedRegistration, hd]

theorem queuedIds_congr {h k : Host} {id : ContextId} (hc : k.context? id = h.context? id) :
    k.queuedIds id = h.queuedIds id := by
  unfold queuedIds
  rw [hc]

theorem queuedIds_of_context? {h : Host} {id : ContextId} {c : Context}
    (hc : h.context? id = some c) : h.queuedIds id = c.queue.ids := by
  simp [queuedIds, hc]

theorem queuedIds_modifyContext {h : Host} {id : ContextId} {c : Context}
    (hc : h.context? id = some c) (f : Context → Context) :
    (h.modifyContext id f).queuedIds id = (f c).queue.ids := by
  simp [queuedIds, context?_modifyContext, hc]

theorem queuedIds_signal (h : Host) (id : ContextId) :
    (h.signal id).queuedIds id = h.queuedIds id := by
  have printed : (h.signal id).queuedIds id
      = (h.modifyContext id fun c => { c with signals := c.signals + 1 }).queuedIds id := rfl
  rw [printed]
  cases hc : h.context? id with
  | none => rw [modifyContext_eq_self hc]
  | some c => rw [queuedIds_modifyContext hc, queuedIds_of_context? hc]

/-! ### Registering -/

theorem ids_of_push? {q r : TaskQueue} {t : TaskId} (h : q.push? t = some r) :
    t ∉ q.ids ∧ r.ids = q.ids ++ [t] := by
  unfold TaskQueue.push? at h
  split at h
  · cases h
  · next fresh =>
    obtain rfl := Option.some.inj h
    exact ⟨by simpa [TaskQueue.contains] using fresh, rfl⟩

/-- What becomes of a queue when an id is put into it. -/
theorem queuedIds_enqueue (h : Host) (lost : Bool) (id : ContextId) (task : TaskId) :
    ((h.enqueue lost id task).2 = .ok () ∧ lost = false ∧ task ∉ h.queuedIds id
        ∧ (h.enqueue lost id task).1.queuedIds id = h.queuedIds id ++ [task])
      ∨ ((h.enqueue lost id task).1.queuedIds id = h.queuedIds id
        ∧ ((h.enqueue lost id task).2 = .ok () → lost = true)) := by
  unfold enqueue
  cases hc : h.context? id with
  | none => exact Or.inr ⟨rfl, fun h => by cases h⟩
  | some c =>
    cases lost with
    | true => exact Or.inr ⟨rfl, fun _ => rfl⟩
    | false =>
      cases hq : c.queue.push? task with
      | none => simp [hq]
      | some q =>
        obtain ⟨fresh, ids⟩ := ids_of_push? hq
        simp [hq, queuedIds_modifyContext hc, queuedIds_of_context? hc, fresh, ids]

theorem registerTask_eq_queueTask {h : Host} (ho : h.outages.registrations = 0) (id : ContextId)
    (task : TaskId) : h.registerTask id task = h.passRegistration.queueTask id task := by
  unfold registerTask
  rw [if_neg (by omega)]

/-- A registration puts the id at the end, or leaves the queue as it is because the
id is lost or the registration fails. -/
theorem queuedIds_registerTask (h : Host) (id : ContextId) (task : TaskId) :
    ((h.registerTask id task).2 = .ok () ∧ h.losesNext = false ∧ task ∉ h.queuedIds id
        ∧ (h.registerTask id task).1.queuedIds id = h.queuedIds id ++ [task])
      ∨ ((h.registerTask id task).1.queuedIds id = h.queuedIds id
        ∧ ((h.registerTask id task).2 = .ok () → h.losesNext = true)) := by
  by_cases ho : 0 < h.outages.registrations
  · unfold registerTask
    rw [if_pos ho]
    exact Or.inr ⟨queuedIds_congr (context?_congr rfl id), fun h => by cases h⟩
  · rw [registerTask_eq_queueTask (by omega)]
    have same : (h.passRegistration.withFaults
        h.passRegistration.faults.takeDroppedRegistration.2).queuedIds id = h.queuedIds id :=
      queuedIds_congr (context?_congr rfl id)
    have queued := queuedIds_enqueue (h.passRegistration.withFaults
      h.passRegistration.faults.takeDroppedRegistration.2) h.losesNext id task
    rw [same] at queued
    exact queued

/-- What a registration that succeeds does. -/
theorem queuedIds_of_registerTask_ok {h k : Host} {id : ContextId} {task : TaskId}
    (hr : h.registerTask id task = (k, .ok ())) :
    (h.losesNext = true ∧ k.queuedIds id = h.queuedIds id)
      ∨ (h.losesNext = false ∧ task ∉ h.queuedIds id
        ∧ k.queuedIds id = h.queuedIds id ++ [task]) := by
  rcases queuedIds_registerTask h id task with ⟨-, kept, fresh, queue⟩ | ⟨queue, lost⟩
  · rw [hr] at queue
    exact Or.inr ⟨kept, fresh, queue⟩
  · rw [hr] at queue lost
    exact Or.inl ⟨lost rfl, queue⟩

theorem queuedIds_of_registerTask_error {h k : Host} {id : ContextId} {task : TaskId}
    {e : HostError} (hr : h.registerTask id task = (k, .error e)) :
    k.queuedIds id = h.queuedIds id := by
  rcases queuedIds_registerTask h id task with ⟨ok, -⟩ | ⟨queue, -⟩
  · rw [hr] at ok
    cases ok
  · rw [hr] at queue
    exact queue

/-- A registration of an id that is not queued succeeds, if the context is known
and no outage is in the way. -/
theorem registerTask_eq_ok {h : Host} {id : ContextId} {task : TaskId}
    (known : (h.context? id).isSome) (ho : h.outages.registrations = 0)
    (fresh : task ∉ h.queuedIds id) : (h.registerTask id task).2 = .ok () := by
  obtain ⟨c, hc⟩ := Option.isSome_iff_exists.mp known
  rw [registerTask_eq_queueTask ho]
  have hc' : (h.passRegistration.withFaults
      h.passRegistration.faults.takeDroppedRegistration.2).context? id = some c :=
    (context?_congr rfl id).trans hc
  rw [queuedIds_of_context? hc] at fresh
  unfold queueTask
  simp only [enqueue, hc']
  split
  · rfl
  · have : c.queue.push? task = some ⟨c.queue.ids ++ [task]⟩ := by
      simp [TaskQueue.push?, TaskQueue.contains, fresh]
    simp only [this]

/-! ### Pulling -/

/-- What a pull that reaches the queue does. -/
theorem queuedIds_dequeue {h : Host} {id : ContextId} {c : Context} (hc : h.context? id = some c)
    (repeated : Bool) :
    (h.dequeue repeated id).2 = .ok (h.queuedIds id).head?
      ∧ ((h.dequeue repeated id).1.queuedIds id = (h.queuedIds id).tail
        ∨ (repeated = true ∧ (h.dequeue repeated id).1.queuedIds id = h.queuedIds id)) := by
  rw [queuedIds_of_context? hc]
  unfold dequeue
  simp only [hc]
  cases repeated with
  | true => exact ⟨rfl, Or.inr ⟨rfl, queuedIds_of_context? hc⟩⟩
  | false =>
    simp only [Bool.false_eq_true, if_false]
    rw [queuedIds_modifyContext hc]
    cases hq : c.queue.ids with
    | nil => simp [TaskQueue.pop?, hq]
    | cons t rest => simp [TaskQueue.pop?, hq]

/-- A pull that no outage refuses gives the first id out, if there is one; the id
stays only by a planned fault. -/
theorem pull_cases {h : Host} {id : ContextId} (known : (h.context? id).isSome)
    (ho : h.outages.pulls = 0) :
    (h.pull id).2 = .ok (h.queuedIds id).head?
      ∧ ((h.pull id).1.queuedIds id = (h.queuedIds id).tail
        ∨ (0 < h.faults.repeatPulls ∧ (h.pull id).1.queuedIds id = h.queuedIds id)) := by
  obtain ⟨c, hc⟩ := Option.isSome_iff_exists.mp known
  have hc' : (h.passPull.withFaults h.passPull.faults.takeRepeatPull.2).context? id = some c :=
    (context?_congr rfl id).trans hc
  have same : (h.passPull.withFaults h.passPull.faults.takeRepeatPull.2).queuedIds id
      = h.queuedIds id := queuedIds_congr (hc'.trans hc.symm)
  have taken := queuedIds_dequeue hc' h.passPull.faults.takeRepeatPull.1
  rw [same] at taken
  have repeats : h.passPull.faults.takeRepeatPull.1 = true → 0 < h.faults.repeatPulls :=
    fun e => of_decide_eq_true e
  unfold pull
  rw [if_neg (by omega), unqueueTask_eq]
  exact ⟨taken.1, taken.2.imp_right fun kept => ⟨repeats kept.1, kept.2⟩⟩

/-- A pull that fails leaves the queue as it is; one that succeeds gives out the
first id, and leaves the others. -/
theorem queuedIds_pull (h : Host) (id : ContextId) :
    (∃ e, (h.pull id).2 = .error e ∧ (h.pull id).1.queuedIds id = h.queuedIds id)
      ∨ ((h.pull id).2 = .ok (h.queuedIds id).head?
        ∧ ((h.pull id).1.queuedIds id = (h.queuedIds id).tail
          ∨ (0 < h.faults.repeatPulls ∧ (h.pull id).1.queuedIds id = h.queuedIds id))) := by
  by_cases ho : 0 < h.outages.pulls
  · refine Or.inl ⟨.cancelled, ?_⟩
    unfold pull
    rw [if_pos ho]
    exact ⟨rfl, queuedIds_congr (context?_congr rfl id)⟩
  · cases hc : h.context? id with
    | none =>
      refine Or.inl ⟨.unknownContext id, ?_⟩
      have hc' : (h.passPull.withFaults h.passPull.faults.takeRepeatPull.2).context? id = none :=
        (context?_congr rfl id).trans hc
      unfold pull
      rw [if_neg ho, unqueueTask_eq, dequeue, hc']
      exact ⟨rfl, queuedIds_congr (context?_congr rfl id)⟩
    | some c => exact Or.inr (pull_cases (by rw [hc]; rfl) (by omega))

theorem sublist_pull (h : Host) (id : ContextId) :
    ((h.pull id).1.queuedIds id).Sublist (h.queuedIds id) := by
  rcases queuedIds_pull h id with ⟨e, -, queue⟩ | ⟨-, queue | ⟨-, queue⟩⟩
  · exact queue ▸ .refl _
  · exact queue ▸ List.tail_sublist _
  · exact queue ▸ .refl _

end Host
end TaskHost
