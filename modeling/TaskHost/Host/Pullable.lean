/-
# What is left to pull

A context can be pulled from successfully as often as it has ids, and once more
for every planned fault that repeats an id. Queueing an id adds one to this
number, a successful pull takes one away, and no other operation changes it.

Key definitions: `Host.pullable`.
Key theorems: `Host.pullable_registerTask_le`, `Host.pullable_pull`,
`Host.pullable_sleep`, `Bridge.pullable_call_le`.
-/
import TaskHost.Bridge

namespace TaskHost
namespace Host

/-- The number of times that a pull of a context can bring an id, if nothing is
queued meanwhile. -/
def pullable (h : Host) (id : ContextId) : Nat := h.queuedCount id + h.faults.repeatPulls

theorem pullable_congr {h k : Host} (id : ContextId) (hc : k.contexts = h.contexts)
    (hf : k.faults.repeatPulls = h.faults.repeatPulls) : k.pullable id = h.pullable id := by
  unfold pullable queuedCount
  rw [hf]
  cases id <;> simp [context?, hc]

/-! ### Changing one context -/

theorem faults_modifyContext (h : Host) (id : ContextId) (f : Context → Context) :
    (h.modifyContext id f).faults = h.faults := by
  cases id <;> rfl

/-- The context that is changed is the only one that may have another queue. -/
theorem queuedCount_modifyContext {h : Host} {id : ContextId} {c : Context} {f : Context → Context}
    (hc : h.context? id = some c) (key : ContextId) :
    (h.modifyContext id f).queuedCount key
      = if key = id then (f c).queue.size else h.queuedCount key := by
  unfold queuedCount
  cases id with
  | foreign u => simp [context?] at hc
  | spawned i =>
    simp only [context?] at hc
    cases key with
    | foreign u => simp [context?]
    | spawned j =>
      simp only [modifyContext, context?, List.getElem?_modify, ContextId.spawned.injEq]
      by_cases hij : j = i
      · subst hij
        simp [hc]
      · have : ¬ i = j := fun e => hij e.symm
        cases hj : h.contexts[j]? <;> simp [hij, this]

theorem queuedCount_of_context? {h : Host} {id : ContextId} {c : Context}
    (hc : h.context? id = some c) : h.queuedCount id = c.queue.size := by
  simp [queuedCount, hc]

theorem modifyContext_eq_self {h : Host} {id : ContextId} {f : Context → Context}
    (hc : h.context? id = none) : h.modifyContext id f = h := by
  cases id with
  | foreign u => rfl
  | spawned i =>
    simp only [context?, List.getElem?_eq_none_iff] at hc
    simp [modifyContext, List.modify_eq_self hc]

theorem pullable_signal (h : Host) (id key : ContextId) :
    (h.signal id).pullable key = h.pullable key := by
  have printed : (h.signal id).pullable key
      = (h.modifyContext id fun c => { c with signals := c.signals + 1 }).pullable key :=
    pullable_congr key rfl rfl
  rw [printed]
  cases hc : h.context? id with
  | none => rw [modifyContext_eq_self hc]
  | some c =>
    unfold pullable
    rw [faults_modifyContext, queuedCount_modifyContext hc]
    split
    · next e => subst e; simp [queuedCount_of_context? hc]
    · rfl

/-! ### Queueing -/

theorem size_of_push? {q r : TaskQueue} {t : TaskId} (h : q.push? t = some r) :
    r.size = q.size + 1 := by
  unfold TaskQueue.push? at h
  split at h
  · simp at h
  · simp only [Option.some.injEq] at h
    subst h
    simp [TaskQueue.size]

theorem pullable_enqueue_le (h : Host) (lost : Bool) (id key : ContextId) (task : TaskId) :
    (h.enqueue lost id task).1.pullable key ≤ h.pullable key + 1 := by
  unfold enqueue
  split
  · exact Nat.le_add_right _ _
  · next c hc =>
    split
    · exact Nat.le_add_right _ _
    · split
      · exact Nat.le_add_right _ _
      · next q hq =>
        unfold pullable
        simp only [faults_modifyContext, queuedCount_modifyContext hc]
        split
        · next e =>
          subst e
          have := queuedCount_of_context? hc
          have := size_of_push? hq
          omega
        · omega

/-- Queueing an id adds at most one, with or without an outage. -/
theorem pullable_registerTask_le (h : Host) (id key : ContextId) (task : TaskId) :
    (h.registerTask id task).1.pullable key ≤ h.pullable key + 1 := by
  have same : h.passRegistration.pullable key = h.pullable key := pullable_congr key rfl rfl
  have asked : (h.passRegistration.withFaults
      h.passRegistration.faults.takeDroppedRegistration.2).pullable key = h.pullable key :=
    pullable_congr key rfl rfl
  unfold registerTask
  split
  · simp only; omega
  · unfold queueTask
    have := pullable_enqueue_le (h.passRegistration.withFaults
      h.passRegistration.faults.takeDroppedRegistration.2)
      h.passRegistration.faults.takeDroppedRegistration.1 id key task
    simp only at this ⊢
    omega

/-! ### Pulling -/

/-- The number of ids that an answer to a pull brings. -/
def brought : Except HostError (Option TaskId) → Nat
  | .ok (some _) => 1
  | _ => 0

theorem size_pop? (q : TaskQueue) : q.pop?.2.size + brought (.ok q.pop?.1) = q.size := by
  cases q with
  | mk ids => cases ids <;> simp [TaskQueue.pop?, TaskQueue.size, brought]

theorem pullable_dequeue_true (h : Host) (id key : ContextId) :
    (h.dequeue true id).1.pullable key = h.pullable key := by
  unfold dequeue
  split <;> rfl

theorem pullable_dequeue_false (h : Host) (id : ContextId) :
    (h.dequeue false id).1.pullable id + brought (h.dequeue false id).2 = h.pullable id := by
  unfold dequeue
  split
  · rfl
  · next c hc =>
    have hq := queuedCount_of_context? hc
    have hs := size_pop? c.queue
    simp only [Bool.false_eq_true, if_false]
    unfold pullable
    simp only [faults_modifyContext, queuedCount_modifyContext hc, if_true]
    omega

theorem brought_le (r : Except HostError (Option TaskId)) : brought r ≤ 1 := by
  unfold brought
  split <;> omega

theorem unqueueTask_eq (h : Host) (id : ContextId) :
    h.unqueueTask id
      = (h.withFaults h.faults.takeRepeatPull.2).dequeue h.faults.takeRepeatPull.1 id := rfl

/-- Taking an id, or using up a repeat, leaves one fewer. -/
theorem pullable_unqueueTask (h : Host) (id : ContextId) :
    (h.unqueueTask id).1.pullable id + brought (h.unqueueTask id).2 ≤ h.pullable id := by
  have count : h.faults.takeRepeatPull.2.repeatPulls = h.faults.repeatPulls - 1 := rfl
  have queue : (h.withFaults h.faults.takeRepeatPull.2).queuedCount id = h.queuedCount id := by
    cases id <;> rfl
  have total : (h.withFaults h.faults.takeRepeatPull.2).pullable id
      = h.queuedCount id + (h.faults.repeatPulls - 1) := by
    rw [← count, ← queue]; rfl
  have whole : h.pullable id = h.queuedCount id + h.faults.repeatPulls := rfl
  rw [unqueueTask_eq]
  by_cases hr : 0 < h.faults.repeatPulls
  · have : h.faults.takeRepeatPull.1 = true := by simp [FaultCounts.takeRepeatPull, hr]
    rw [this, pullable_dequeue_true]
    have := brought_le ((h.withFaults h.faults.takeRepeatPull.2).dequeue true id).2
    omega
  · have : h.faults.takeRepeatPull.1 = false := by simp [FaultCounts.takeRepeatPull, hr]
    rw [this, pullable_dequeue_false]
    omega

/-- A pull that brings an id leaves at least one fewer. -/
theorem pullable_pull (h : Host) (id : ContextId) :
    (h.pull id).1.pullable id + brought (h.pull id).2 ≤ h.pullable id := by
  have same : h.passPull.pullable id = h.pullable id := pullable_congr id rfl rfl
  unfold pull
  split
  · simp only [brought]; omega
  · rw [← same]
    exact pullable_unqueueTask h.passPull id

/-! ### Time -/

theorem pullable_drive (h : Host) (id : ContextId) : h.drive.1.pullable id = h.pullable id := by
  unfold drive
  split
  · rfl
  · exact pullable_congr id rfl rfl

theorem pullable_setTimeout (h : Host) (delay : Duration) (id : ContextId) :
    (h.setTimeout delay).1.pullable id = h.pullable id := by
  unfold setTimeout
  split <;> exact pullable_congr id rfl rfl

theorem pullable_awaitWithin (fuel : Nat) (h : Host) (s : Signal) (id : ContextId) :
    (awaitWithin fuel h s).1.pullable id = h.pullable id := by
  induction fuel generalizing h with
  | zero => unfold awaitWithin; split <;> rfl
  | succ fuel ih =>
    unfold awaitWithin
    have driven := pullable_drive h id
    split
    · rfl
    · simp only
      split
      · next k hk => rw [ih, ← driven, hk]
      · next k hk => rw [← driven, hk]

/-- Waiting changes nothing in any queue. -/
theorem pullable_sleep (h : Host) (delay : Duration) (id : ContextId) :
    (h.sleep delay).1.pullable id = h.pullable id := by
  unfold sleep await
  simp only [pullable_awaitWithin, pullable_setTimeout]

end Host

/-- A call through a bridge adds at most one id. -/
theorem Bridge.pullable_call_le {φ : Type} (b : Bridge φ) (h : Host) (c : HostCall) :
    (b.call h c).1.pullable b.context ≤ h.pullable b.context + 1 := by
  cases c with
  | read path => exact Nat.le_succ_of_le (Nat.le_of_eq (Host.pullable_congr _ rfl rfl))
  | readText path => exact Nat.le_succ_of_le (Nat.le_of_eq (Host.pullable_congr _ rfl rfl))
  | write path contents => exact Nat.le_succ_of_le (Nat.le_of_eq (Host.pullable_congr _ rfl rfl))
  | remove path => exact Nat.le_succ_of_le (Nat.le_of_eq (Host.pullable_congr _ rfl rfl))
  | fetch url => exact Nat.le_succ_of_le (Nat.le_of_eq (Host.pullable_congr _ rfl rfl))
  | sleep delay => exact Nat.le_succ_of_le (Nat.le_of_eq (Host.pullable_sleep h delay _))
  | push task => exact Host.pullable_registerTask_le h b.context b.context task
  | pull => exact Nat.le_succ_of_le (Nat.le_trans (Nat.le_add_right _ _) (Host.pullable_pull h b.context))
  | signal => exact Nat.le_succ_of_le (Nat.le_of_eq (Host.pullable_signal h _ _))
  | pending => exact Nat.le_succ _
  | now => exact Nat.le_succ _

end TaskHost
