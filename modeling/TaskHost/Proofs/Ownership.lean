/-
# Every timer is pending or has fired

A host numbers its timers as it schedules them, and each number is at every time in
exactly one of two places: among the pending timers, or among those that have fired
(`Host.Owned`). Firing moves numbers from the first place to the second, and nothing
moves them back (`Host.Onward`). So the signal of a timer either waits for a pending
timer or has its outcome, which is good and stays (`Host.Owned.scheduled`).

What else can be asked of a host, by whomever, touches no timer and leaves the clock
(`Host.Still`, `Host.Request.still_serve`).

Key definitions: `Host.Owned`, `Host.Onward`, `Host.Still`, `Host.Request`.
Key theorems: `Host.Owned.scheduled`, `Host.onward_drive`, `Host.onward_setTimeout`,
`Host.Request.still_serve`, `Host.Request.onward_serve`.
-/
import Mathlib.Data.List.Nodup
import TaskHost.Proofs.Waits

namespace TaskHost
namespace Host

variable {h k l : Host}

/-- The numbers of the timers that are pending and of those that have fired are the
numbers given out so far, each of them once. -/
def Owned (h : Host) : Prop :=
  (h.timers.pending.map PendingTimer.order ++ h.fired.map Prod.fst).Perm
    (List.range h.timers.nextOrder)

theorem owned_new (timers : h.timers = .empty) (fired : h.fired = []) : h.Owned := by
  unfold Owned
  rw [timers, fired]
  exact .refl _

theorem isSome_lookup_iff {order : Nat} (l : List (Nat × Nat)) :
    (l.lookup order).isSome ↔ order ∈ l.map Prod.fst := by
  induction l with
  | nil => simp
  | cons p rest ih =>
    obtain ⟨o, seq⟩ := p
    by_cases same : order = o
    · simp [same]
    · have other : (order == o) = false := by simpa using same
      simp only [List.lookup_cons, other, ih, List.map_cons, List.mem_cons, same, false_or]

/-- The timer with a number that was given out is pending and has no outcome yet, or it
is not pending and has fired. -/
theorem Owned.scheduled (owned : h.Owned) {order : Nat} (given : order < h.timers.nextOrder) :
    ((∃ t ∈ h.timers.pending, t.order = order) ∧ h.completion? (.scheduled order) = none)
      ∨ ((∀ t ∈ h.timers.pending, t.order ≠ order)
        ∧ ∃ seq, h.completion? (.scheduled order) = some ⟨seq, .ok ()⟩) := by
  have nodup := owned.nodup_iff.mpr List.nodup_range
  obtain ⟨-, -, apart⟩ := List.nodup_append.mp nodup
  have somewhere := owned.mem_iff.mpr (List.mem_range.mpr given)
  rcases List.mem_append.mp somewhere with pending | fired
  · refine Or.inl ⟨List.mem_map.mp pending, ?_⟩
    rw [completion?, Option.map_eq_none_iff, ← Option.not_isSome_iff_eq_none, isSome_lookup_iff]
    exact fun fired => apart order pending order fired rfl
  · refine Or.inr ⟨fun t ht e => ?_, ?_⟩
    · exact apart order (List.mem_map.mpr ⟨t, ht, e⟩) order fired rfl
    · obtain ⟨seq, hs⟩ := Option.isSome_iff_exists.mp ((isSome_lookup_iff h.fired).mpr fired)
      exact ⟨seq, by rw [completion?, hs]; rfl⟩

theorem Owned.eq_of_order (owned : h.Owned) {p q : PendingTimer} (hp : p ∈ h.timers.pending)
    (hq : q ∈ h.timers.pending) (same : p.order = q.order) : p = q := by
  have nodup := owned.nodup_iff.mpr List.nodup_range
  exact List.inj_on_of_nodup_map (List.nodup_append.mp nodup).1 hp hq same

theorem Owned.order_lt (owned : h.Owned) {p : PendingTimer} (pending : p ∈ h.timers.pending) :
    p.order < h.timers.nextOrder :=
  List.mem_range.mp (owned.mem_iff.mp (List.mem_append_left _ (List.mem_map_of_mem pending)))

theorem Owned.unfired (owned : h.Owned) {p : PendingTimer} (pending : p ∈ h.timers.pending) :
    h.completion? (.scheduled p.order) = none := by
  rcases owned.scheduled (owned.order_lt pending) with ⟨-, missing⟩ | ⟨apart, -⟩
  · exact missing
  · exact absurd rfl (apart p pending)

/-- A host goes on: numbers stay owned, a timer that has fired stays so, and no number
is given out twice. -/
structure Onward (h k : Host) : Prop where
  owned : h.Owned → k.Owned
  fired : h.fired <+: k.fired
  orders : h.timers.nextOrder ≤ k.timers.nextOrder
  outages : k.outages.timers ≤ h.outages.timers

theorem Onward.refl (h : Host) : Onward h h := ⟨id, List.prefix_rfl, Nat.le_refl _, Nat.le_refl _⟩

theorem Onward.trans (a : Onward h k) (b : Onward k l) : Onward h l :=
  ⟨fun owned => b.owned (a.owned owned), a.fired.trans b.fired, Nat.le_trans a.orders b.orders,
    Nat.le_trans b.outages a.outages⟩

theorem Onward.of_same (timers : k.timers = h.timers) (fired : k.fired = h.fired)
    (outages : k.outages.timers = h.outages.timers) : Onward h k := by
  refine ⟨fun owned => ?_, fired ▸ List.prefix_rfl, Nat.le_of_eq (by rw [timers]),
    Nat.le_of_eq outages⟩
  unfold Owned
  rw [timers, fired]
  exact owned

theorem Onward.completion? (onward : Onward h k) {σ : Signal} {c : Completion Unit}
    (found : h.completion? σ = some c) : k.completion? σ = some c := by
  cases σ with
  | cancelled => exact found
  | scheduled order =>
    obtain ⟨seq, hs, rfl⟩ := Option.map_eq_some_iff.mp found
    obtain ⟨more, whole⟩ := onward.fired
    rw [Host.completion?, ← whole, List.lookup_append, hs]
    rfl

/-! ### Scheduling and firing -/

theorem onward_schedule (h : Host) (delay : Duration) : Onward h (h.schedule delay).1 := by
  refine ⟨fun owned => ?_, List.prefix_rfl, Nat.le_succ _, Nat.le_refl _⟩
  show (List.map PendingTimer.order (h.timers.pending ++ [_]) ++ h.fired.map Prod.fst).Perm
    (List.range (h.timers.nextOrder + 1))
  rw [List.map_append, List.append_assoc, List.range_succ]
  have moved : ([h.timers.nextOrder] ++ h.fired.map Prod.fst).Perm
      (h.fired.map Prod.fst ++ [h.timers.nextOrder]) := List.perm_append_comm
  refine (moved.append_left _).trans ?_
  rw [← List.append_assoc]
  exact owned.append_right _

theorem onward_setTimeout (h : Host) (delay : Duration) : Onward h (h.setTimeout delay).1 := by
  have passed : Onward h h.passTimer := ⟨id, List.prefix_rfl, Nat.le_refl _, Nat.sub_le _ _⟩
  unfold setTimeout
  split
  · exact passed
  · exact passed.trans (onward_schedule h.passTimer delay)

theorem map_fst_numberFired (seq : Nat) (due : List PendingTimer) :
    (numberFired seq due).map Prod.fst = due.map PendingTimer.order := by
  induction due generalizing seq with
  | nil => rfl
  | cons t rest ih => rw [numberFired, List.map_cons, List.map_cons, ih]

/-- Firing moves the numbers of the timers that are due. -/
theorem onward_fireDue (h : Host) : Onward h h.fireDue := by
  refine ⟨fun owned => ?_, List.prefix_append _ _, Nat.le_refl _, Nat.le_refl _⟩
  obtain ⟨taken, kept⟩ := TimerQueue.takeDue_perm h.timers h.clock
  let due : List Nat := (h.timers.takeDue h.clock).1.map PendingTimer.order
  let left : List Nat := (h.timers.takeDue h.clock).2.pending.map PendingTimer.order
  have split : (due ++ left).Perm (h.timers.pending.map PendingTimer.order) := by
    rw [← List.map_append]
    exact ((taken.append kept).trans (List.filter_append_perm _ _)).map _
  have numbers : h.fireDue.fired.map Prod.fst = h.fired.map Prod.fst ++ due := by
    exact List.map_append.trans (congrArg (_ ++ ·) (map_fst_numberFired _ _))
  show (left ++ h.fireDue.fired.map Prod.fst).Perm (List.range h.timers.nextOrder)
  rw [numbers]
  refine List.Perm.trans ?_ owned
  calc (left ++ (h.fired.map Prod.fst ++ due)).Perm (left ++ (due ++ h.fired.map Prod.fst)) :=
        List.perm_append_comm.append_left _
    _ = left ++ due ++ h.fired.map Prod.fst := (List.append_assoc _ _ _).symm
    List.Perm _ (due ++ left ++ h.fired.map Prod.fst) := List.perm_append_comm.append_right _
    List.Perm _ (h.timers.pending.map PendingTimer.order ++ h.fired.map Prod.fst) :=
        split.append_right _

theorem onward_withClock (h : Host) (t : Instant) : Onward h { h with clock := t } :=
  .of_same rfl rfl rfl

theorem onward_advance (h : Host) (d : Duration) : Onward h (h.advance d) :=
  (onward_withClock h _).trans (onward_fireDue _)

theorem onward_drive (h : Host) : Onward h h.drive.1 := by
  unfold drive
  split
  · exact .refl h
  · exact (onward_withClock h _).trans (onward_fireDue _)

/-! ### What touches no timer -/

/-- Neither clock nor timers change. -/
structure Still (h k : Host) : Prop where
  clock : k.clock = h.clock
  timers : k.timers = h.timers
  fired : k.fired = h.fired
  completions : h.completions ≤ k.completions
  outages : k.outages.timers = h.outages.timers

theorem Still.refl (h : Host) : Still h h := ⟨rfl, rfl, rfl, Nat.le_refl _, rfl⟩

theorem Still.trans (a : Still h k) (b : Still k l) : Still h l :=
  ⟨b.clock.trans a.clock, b.timers.trans a.timers, b.fired.trans a.fired,
    Nat.le_trans a.completions b.completions, b.outages.trans a.outages⟩

theorem Still.onward (still : Still h k) : Onward h k :=
  .of_same still.timers still.fired still.outages

theorem still_modifyContext (h : Host) (id : ContextId) (f : Context → Context) :
    Still h (h.modifyContext id f) := by
  cases id <;> exact ⟨rfl, rfl, rfl, Nat.le_refl _, rfl⟩

theorem still_withFaults (h : Host) (faults : FaultCounts) : Still h (h.withFaults faults) :=
  ⟨rfl, rfl, rfl, Nat.le_refl _, rfl⟩

theorem still_enqueue (h : Host) (lost : Bool) (id : ContextId) (task : TaskId) :
    Still h (h.enqueue lost id task).1 := by
  unfold enqueue
  split
  · exact .refl h
  · split
    · exact .refl h
    · split
      · exact .refl h
      · exact still_modifyContext h id _

theorem still_registerTask (h : Host) (id : ContextId) (task : TaskId) :
    Still h (h.registerTask id task).1 := by
  have passed : Still h h.passRegistration := ⟨rfl, rfl, rfl, Nat.le_refl _, rfl⟩
  unfold registerTask
  split
  · exact passed
  · exact (passed.trans (still_withFaults _ _)).trans (still_enqueue _ _ id task)

theorem still_dequeue (h : Host) (repeated : Bool) (id : ContextId) :
    Still h (h.dequeue repeated id).1 := by
  unfold dequeue
  split
  · exact .refl h
  · split
    · exact .refl h
    · exact still_modifyContext h id _

theorem still_pull (h : Host) (id : ContextId) : Still h (h.pull id).1 := by
  have passed : Still h h.passPull := ⟨rfl, rfl, rfl, Nat.le_refl _, rfl⟩
  unfold pull
  split
  · exact passed
  · exact (passed.trans (still_withFaults _ _)).trans (still_dequeue _ _ id)

/-! ### Other requests -/

/-- What else is asked of a host: to make a context, to keep its queue or to signal for
it, to remove a file, to print, or to let time pass. -/
inductive Request where
  | spawn (descriptor : ContextDescriptor)
  | register (id : ContextId) (task : TaskId)
  | pull (id : ContextId)
  | signal (id : ContextId)
  | remove (path : String)
  | print (line : String) (isError : Bool)
  | advance (duration : Duration)
  | drive

/-- The host after a request. -/
def Request.serve (h : Host) : Request → Host
  | .spawn d => (h.spawn d).1
  | .register id task => (h.registerTask id task).1
  | .pull id => (h.pull id).1
  | .signal id => h.signal id
  | .remove path => (h.removeFile path).1
  | .print line isError => h.print line isError
  | .advance d => h.advance d
  | .drive => h.drive.1

/-- Whether a request moves time on and fires what is due. -/
def Request.movesTime : Request → Bool
  | .advance _ => true
  | .drive => true
  | _ => false

theorem Request.still_serve (h : Host) (r : Request) (calm : r.movesTime = false) :
    Still h (r.serve h) := by
  cases r with
  | spawn d =>
    show Still h (h.spawn d).1
    unfold Host.spawn
    split <;> exact ⟨rfl, rfl, rfl, Nat.le_refl _, rfl⟩
  | register id task => exact still_registerTask h id task
  | pull id => exact still_pull h id
  | signal id =>
    have counted := still_modifyContext h id fun c => { c with signals := c.signals + 1 }
    exact counted.trans ⟨rfl, rfl, rfl, Nat.le_refl _, rfl⟩
  | remove path => exact ⟨rfl, rfl, rfl, Nat.le_refl _, rfl⟩
  | print line isError => exact ⟨rfl, rfl, rfl, Nat.le_refl _, rfl⟩
  | advance d => cases calm
  | drive => cases calm

/-- No request touches the number of a timer, except that time fires timers. -/
theorem Request.onward_serve (h : Host) (r : Request) : Onward h (r.serve h) := by
  cases moves : r.movesTime with
  | false => exact (r.still_serve h moves).onward
  | true =>
    cases r with
    | advance d => exact onward_advance h d
    | drive => exact onward_drive h
    | _ => cases moves

end Host
end TaskHost
