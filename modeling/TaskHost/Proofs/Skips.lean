/-
# Time passes at once or step by step

Letting a duration pass and jumping to the next deadline both put the clock forward to
an instant and fire what is due by then (`Host.skipTo`). Two skips forward come to one:
the first fires the timers that are due by its instant, the second those that are due
from there on, and the two sorted batches together are the one sorted batch
(`TimerQueue.due_append`). Only the arrangement of the pending timers in their
queue may differ, and no call shows it (`Host.Rearranged.serve`).

So letting time pass is additive (`Host.advance_add`). A pause jumps from deadline to
deadline until its own timer has fired; no jump goes beyond the deadline of a pending
timer (`Host.drive_eq_skipTo`), so the jumps come to one skip to the deadline of the
pause, and the pause leaves the host as letting its duration pass does
(`Host.sleep_passes`).

Key definitions: `Host.skipTo`, `Host.Rearranged`, `Host.Reachable`.
Key theorems: `Host.skipTo_skipTo`, `Host.Rearranged.serve`, `Host.advance_add`,
`Host.awaitWithin_skips`, `Host.sleep_passes`.
-/
import TaskHost.Proofs.Chronicles

namespace TaskHost
namespace Host

variable {h k l : Host} {t u : Instant}

/-! ### Hosts that differ in the arrangement of their timers -/

/-- The host with its pending timers in another arrangement. -/
def withPending (h : Host) (pending : List PendingTimer) : Host :=
  { h with timers := { h.timers with pending := pending } }

/-- A host that differs from another one at most in the arrangement of its pending
timers. -/
def Rearranged (h k : Host) : Prop :=
  ∃ pending, pending.Perm h.timers.pending ∧ k = h.withPending pending

theorem Rearranged.refl (h : Host) : Rearranged h h := ⟨h.timers.pending, .refl _, rfl⟩

theorem Rearranged.trans (a : Rearranged h k) (b : Rearranged k l) : Rearranged h l := by
  obtain ⟨pending, perm, rfl⟩ := a
  obtain ⟨pending', perm', rfl⟩ := b
  exact ⟨pending', perm'.trans perm, rfl⟩

/-! ### Skipping to an instant -/

/-- The host once its clock has been put to an instant and what is due by then has
fired. -/
def skipTo (h : Host) (t : Instant) : Host := { h with clock := t }.fireDue

theorem advance_eq_skipTo (h : Host) (d : Duration) : h.advance d = h.skipTo (h.clock.after d) := rfl

theorem skipTo_eq (h : Host) (t : Instant) :
    h.skipTo t = { h with
      clock := t
      timers := (h.timers.takeDue t).2
      fired := h.fired ++ numberFired h.completions (h.timers.due t)
      completions := h.completions + (h.timers.due t).length } := by
  rw [← TimerQueue.fst_takeDue]
  rfl

theorem pending_skipTo (h : Host) (t : Instant) :
    (h.skipTo t).timers.pending.Perm (h.timers.left t) := TimerQueue.pending_takeDue h.timers t

/-- The arrangement of the timers makes no difference to a skip. -/
theorem Rearranged.skipTo (a : Rearranged h k) (t : Instant) :
    Rearranged (h.skipTo t) (k.skipTo t) := by
  obtain ⟨pending, perm, rfl⟩ := a
  have same : (h.withPending pending).timers.due t = h.timers.due t := TimerQueue.due_congr perm
  have kept : ((h.withPending pending).skipTo t).timers.pending.Perm (h.skipTo t).timers.pending :=
    ((pending_skipTo _ t).trans (TimerQueue.left_congr perm)).trans (pending_skipTo h t).symm
  refine ⟨_, kept, ?_⟩
  rw [skipTo_eq (h.withPending pending), same, skipTo_eq h]
  rfl

theorem numberFired_append (seq : Nat) (due more : List PendingTimer) :
    numberFired seq (due ++ more) = numberFired seq due ++ numberFired (seq + due.length) more := by
  induction due generalizing seq with
  | nil => rfl
  | cons p rest ih =>
    simp only [List.cons_append, numberFired, ih, List.length_cons]
    rw [Nat.add_right_comm, Nat.add_assoc]

/-- Two skips forward come to one. -/
theorem skipTo_skipTo (h : Host) (le : t ≤ u) :
    Rearranged (h.skipTo u) ((h.skipTo t).skipTo u) := by
  have batches := TimerQueue.due_append le (pending_skipTo h t)
  have kept : ((h.skipTo t).skipTo u).timers.pending.Perm (h.skipTo u).timers.pending := by
    refine (pending_skipTo _ u).trans (List.Perm.trans ?_ (pending_skipTo h u).symm)
    refine ((pending_skipTo h t).filter _).trans (.of_eq ?_)
    rw [TimerQueue.left, TimerQueue.left, List.filter_filter]
    refine List.filter_congr fun p _ => ?_
    rw [Bool.eq_iff_iff, Bool.and_eq_true, decide_eq_true_eq, decide_eq_true_eq]
    exact ⟨And.left, fun late => ⟨late, Nat.lt_of_le_of_lt le late⟩⟩
  refine ⟨_, kept, ?_⟩
  rw [skipTo_eq (h.skipTo t) u, skipTo_eq h u, ← batches, numberFired_append, List.length_append,
    ← List.append_assoc, ← Nat.add_assoc, skipTo_eq h t]
  rfl

/-! ### No call shows the arrangement -/

theorem Rearranged.completion? (a : Rearranged h k) (σ : Signal) :
    k.completion? σ = h.completion? σ := by
  obtain ⟨pending, -, rfl⟩ := a
  cases σ <;> rfl

theorem Rearranged.setTimeout (a : Rearranged h k) (d : Duration) :
    Rearranged (h.setTimeout d).1 (k.setTimeout d).1 ∧ (k.setTimeout d).2 = (h.setTimeout d).2 := by
  obtain ⟨pending, perm, rfl⟩ := a
  by_cases refused : 0 < h.outages.timers
  · have refused' : 0 < (h.withPending pending).outages.timers := refused
    unfold Host.setTimeout
    rw [if_pos refused, if_pos refused']
    exact ⟨⟨pending, perm, rfl⟩, rfl⟩
  · have open' : ¬ 0 < (h.withPending pending).outages.timers := refused
    unfold Host.setTimeout
    rw [if_neg refused, if_neg open']
    exact ⟨⟨_, perm.append_right _, rfl⟩, rfl⟩

theorem Rearranged.drive (a : Rearranged h k) :
    Rearranged h.drive.1 k.drive.1 ∧ k.drive.2 = h.drive.2 := by
  obtain ⟨pending, perm, rfl⟩ := a
  have same : (h.withPending pending).timers.nextDeadline? = h.timers.nextDeadline? :=
    TimerQueue.nextDeadline?_congr perm
  constructor
  · unfold Host.drive
    rw [same]
    cases h.timers.nextDeadline? with
    | none => exact ⟨pending, perm, rfl⟩
    | some d => exact Rearranged.skipTo ⟨pending, perm, rfl⟩ (h.clock.latest d)
  · rw [Bool.eq_iff_iff, drive_eq_true_iff, drive_eq_true_iff]
    refine not_congr ⟨fun none => ?_, fun none => ?_⟩
    · obtain rfl : pending = [] := none
      exact perm.nil_eq.symm
    · rw [none] at perm
      exact perm.eq_nil

theorem Rearranged.awaitWithin (a : Rearranged h k) (fuel : Nat) (σ : Signal) :
    Rearranged (h.awaitWithin fuel σ).1 (k.awaitWithin fuel σ).1
      ∧ (k.awaitWithin fuel σ).2 = (h.awaitWithin fuel σ).2 := by
  induction fuel generalizing h k with
  | zero =>
    unfold Host.awaitWithin
    rw [a.completion? σ]
    cases h.completion? σ <;> exact ⟨a, rfl⟩
  | succ fuel ih =>
    obtain ⟨driven, same⟩ := a.drive
    unfold Host.awaitWithin
    rw [a.completion? σ]
    cases h.completion? σ with
    | some c => exact ⟨a, rfl⟩
    | none =>
      cases hl : h.drive with
      | mk l fired =>
        cases hm : k.drive with
        | mk m fired' =>
          rw [hl, hm] at driven same
          obtain rfl : fired' = fired := same
          cases fired' with
          | true => exact ih driven
          | false => exact ⟨driven, rfl⟩

theorem context?_withPending (h : Host) (pending : List PendingTimer) (id : ContextId) :
    (h.withPending pending).context? id = h.context? id := context?_congr rfl id

theorem modifyContext_withPending (h : Host) (pending : List PendingTimer) (id : ContextId)
    (f : Context → Context) :
    (h.withPending pending).modifyContext id f = (h.modifyContext id f).withPending pending := by
  cases id <;> rfl

theorem enqueue_withPending (h : Host) (pending : List PendingTimer) (lost : Bool) (id : ContextId)
    (task : TaskId) :
    ((h.withPending pending).enqueue lost id task).1
      = (h.enqueue lost id task).1.withPending pending := by
  unfold enqueue
  rw [context?_withPending]
  cases h.context? id with
  | none => rfl
  | some c =>
    cases lost with
    | true => rfl
    | false =>
      cases pushed : c.queue.push? task with
      | none => simp [pushed]
      | some queue => simp [pushed, modifyContext_withPending]

theorem dequeue_withPending (h : Host) (pending : List PendingTimer) (repeated : Bool)
    (id : ContextId) :
    ((h.withPending pending).dequeue repeated id).1
      = (h.dequeue repeated id).1.withPending pending := by
  unfold dequeue
  rw [context?_withPending]
  cases h.context? id with
  | none => rfl
  | some c =>
    cases repeated with
    | true => rfl
    | false => exact modifyContext_withPending h pending id _

/-- A request that moves no time does not look at the timers. -/
theorem Request.serve_withPending (h : Host) (pending : List PendingTimer) (r : Request)
    (calm : r.movesTime = false) :
    r.serve (h.withPending pending) = (r.serve h).withPending pending := by
  cases r with
  | spawn d =>
    show ((h.withPending pending).spawn d).1 = ((h.spawn d).1).withPending pending
    by_cases refused : 0 < h.outages.spawns
    · have refused' : 0 < (h.withPending pending).outages.spawns := refused
      rw [Host.spawn, Host.spawn, if_pos refused, if_pos refused']
      rfl
    · have open' : ¬ 0 < (h.withPending pending).outages.spawns := refused
      rw [Host.spawn, Host.spawn, if_neg refused, if_neg open']
      rfl
  | register id task =>
    show ((h.withPending pending).registerTask id task).1 = ((h.registerTask id task).1).withPending pending
    by_cases refused : 0 < h.outages.registrations
    · have refused' : 0 < (h.withPending pending).outages.registrations := refused
      rw [registerTask, registerTask, if_pos refused, if_pos refused']
      rfl
    · have open' : ¬ 0 < (h.withPending pending).outages.registrations := refused
      rw [registerTask, registerTask, if_neg refused, if_neg open']
      exact enqueue_withPending (h.passRegistration.withFaults _) pending _ id task
  | pull id =>
    show ((h.withPending pending).pull id).1 = ((h.pull id).1).withPending pending
    by_cases refused : 0 < h.outages.pulls
    · have refused' : 0 < (h.withPending pending).outages.pulls := refused
      rw [Host.pull, Host.pull, if_pos refused, if_pos refused']
      rfl
    · have open' : ¬ 0 < (h.withPending pending).outages.pulls := refused
      rw [Host.pull, Host.pull, if_neg refused, if_neg open']
      exact dequeue_withPending (h.passPull.withFaults _) pending _ id
  | signal id => cases id <;> rfl
  | remove path => rfl
  | print line isError => rfl
  | advance d => cases calm
  | drive => cases calm

theorem Rearranged.serve (a : Rearranged h k) (call : Call) :
    Rearranged (call.serve h) (call.serve k) := by
  cases call with
  | request r =>
    cases moves : r.movesTime with
    | false =>
      obtain ⟨pending, perm, rfl⟩ := a
      have still := r.still_serve h moves
      refine ⟨pending, ?_, r.serve_withPending h pending moves⟩
      rw [show (Call.request r).serve h = r.serve h from rfl, still.timers]
      exact perm
    | true =>
      cases r with
      | advance d =>
        obtain ⟨pending, perm, rfl⟩ := a
        exact Rearranged.skipTo ⟨pending, perm, rfl⟩ (h.clock.after d)
      | drive => exact a.drive.1
      | _ => cases moves
  | start op =>
    cases op with
    | timer d => exact (a.setTimeout d).1
    | _ =>
      obtain ⟨pending, perm, rfl⟩ := a
      exact ⟨pending, perm, rfl⟩
  | sleep d =>
    obtain ⟨set, same⟩ := a.setTimeout d
    have size : (k.setTimeout d).1.timers.size = (h.setTimeout d).1.timers.size := by
      obtain ⟨pending, perm, e⟩ := set
      rw [e]
      exact perm.length_eq
    show Rearranged ((h.setTimeout d).1.awaitWithin (h.setTimeout d).1.timers.size (h.setTimeout d).2).1
      ((k.setTimeout d).1.awaitWithin (k.setTimeout d).1.timers.size (k.setTimeout d).2).1
    rw [size, same]
    exact (set.awaitWithin _ _).1

/-! ### Letting time pass -/

theorem after_add (t : Instant) (d e : Duration) : t.after (d + e) = (t.after d).after e := by
  have bound := t.nanos_le
  show Instant.ofNanos (t.nanos + min (d.nanos + e.nanos) maxWord)
    = Instant.ofNanos (min (t.nanos + d.nanos) maxWord + e.nanos)
  unfold Instant.ofNanos
  congr 1
  omega

/-- **Time is additive.** Letting one duration pass and then another one leaves a host as
letting their sum pass does, also where the sums end at the last instant: the clock is
both durations later, the timers that are due by then have fired, with the next sequence
numbers in the order of their deadlines, and the others are pending; all else is as it
was. -/
theorem advance_add (h : Host) (d e : Duration) :
    let passed := h.advance (d + e)
    Rearranged passed ((h.advance d).advance e)
      ∧ passed.clock.nanos = min (h.clock.nanos + d.nanos + e.nanos) maxWord
      ∧ passed.fired = h.fired ++ numberFired h.completions (h.timers.due passed.clock)
      ∧ passed.timers.pending.Perm (h.timers.left passed.clock) := by
  intro passed
  refine ⟨?_, ?_, congrArg Host.fired (skipTo_eq h _), pending_skipTo h _⟩
  · show Rearranged (h.skipTo (h.clock.after (d + e))) _
    rw [after_add]
    exact skipTo_skipTo h (Instant.le_after _ e)
  · show min (h.clock.nanos + min (d.nanos + e.nanos) maxWord) maxWord = _
    omega

/-! ### Jumping from deadline to deadline -/

/-- A drive while a timer is pending skips forward, not beyond the deadline of that
timer. -/
theorem drive_eq_skipTo {p : PendingTimer} (pending : p ∈ h.timers.pending)
    (ahead : h.clock ≤ p.deadline) :
    ∃ t, h.clock ≤ t ∧ t ≤ p.deadline ∧ h.drive = (h.skipTo t, true) := by
  obtain ⟨fired, -⟩ := drive_of_pending (List.ne_nil_of_mem pending)
  unfold drive at fired
  cases next : h.timers.nextDeadline? with
  | none => exact absurd (TimerQueue.nextDeadline?_eq_none_iff.mp next) (List.ne_nil_of_mem pending)
  | some d =>
    rw [next] at fired
    refine ⟨h.clock.latest d, h.clock.le_latest d, ?_, ?_⟩
    · unfold Instant.latest
      split
      · exact TimerQueue.le_of_nextDeadline? next pending
      · exact ahead
    · unfold drive
      rw [next]
      exact fired

theorem onward_skipTo (h : Host) (t : Instant) : Onward h (h.skipTo t) :=
  (onward_withClock h t).trans (onward_fireDue _)

/-- Whether a timer that is pending has fired after a skip depends on its deadline
alone. -/
theorem Owned.after_skipTo (owned : h.Owned) {p : PendingTimer} (pending : p ∈ h.timers.pending)
    (t : Instant) :
    (p.deadline ≤ t ∧ ∃ seq, (h.skipTo t).completion? (.scheduled p.order) = some ⟨seq, .ok ()⟩)
      ∨ (t < p.deadline ∧ p ∈ (h.skipTo t).timers.pending) := by
  have after : (h.skipTo t).Owned := (onward_skipTo h t).owned owned
  have given : p.order < (h.skipTo t).timers.nextOrder := owned.order_lt pending
  by_cases due : p.deadline ≤ t
  · refine Or.inl ⟨due, ?_⟩
    rcases after.scheduled given with ⟨⟨q, hq, same⟩, -⟩ | ⟨-, fired⟩
    · obtain ⟨was, late⟩ := TimerQueue.mem_left.mp ((pending_skipTo h t).mem_iff.mp hq)
      obtain rfl := owned.eq_of_order was pending same
      exact absurd due (Nat.not_le_of_lt late)
    · exact fired
  · have late : t < p.deadline := Nat.lt_of_not_le due
    exact Or.inr ⟨late, (pending_skipTo h t).mem_iff.mpr (TimerQueue.mem_left.mpr ⟨pending, late⟩)⟩

/-- A wait ends at once if the outcome is there. -/
theorem awaitWithin_of_completion {σ : Signal} {c : Completion Unit}
    (found : h.completion? σ = some c) (fuel : Nat) : h.awaitWithin fuel σ = (h, c.result) := by
  cases fuel <;> unfold awaitWithin <;> rw [found]

/-- A wait for a pending timer comes to a skip to its deadline. -/
theorem awaitWithin_skips (fuel : Nat) (owned : h.Owned) {p : PendingTimer}
    (pending : p ∈ h.timers.pending) (ahead : h.clock ≤ p.deadline)
    (enough : h.timers.size ≤ fuel) :
    ∃ k, Rearranged (h.skipTo p.deadline) k
      ∧ h.awaitWithin fuel (.scheduled p.order) = (k, .ok ()) := by
  induction fuel generalizing h with
  | zero =>
    have idle : h.timers.pending = [] := List.eq_nil_of_length_eq_zero (Nat.le_zero.mp enough)
    rw [idle] at pending
    cases pending
  | succ fuel ih =>
    obtain ⟨-, fewer⟩ := drive_of_pending (List.ne_nil_of_mem pending)
    obtain ⟨t, -, le, driven⟩ := drive_eq_skipTo pending ahead
    have enough' : (h.skipTo t).timers.size ≤ fuel := by
      rw [driven] at fewer
      exact Nat.le_of_lt_succ (Nat.lt_of_lt_of_le fewer enough)
    have goes : h.awaitWithin (fuel + 1) (.scheduled p.order)
        = (h.skipTo t).awaitWithin fuel (.scheduled p.order) := by
      rw [awaitWithin, owned.unfired pending, driven]
    rw [goes]
    rcases owned.after_skipTo pending t with ⟨due, seq, fired⟩ | ⟨late, still⟩
    · obtain rfl := Instant.eq_of_le le due
      exact ⟨_, .refl _, awaitWithin_of_completion fired fuel⟩
    · obtain ⟨k, same, waits⟩ := ih ((onward_skipTo h t).owned owned) still le enough'
      exact ⟨k, (skipTo_skipTo h le).trans same, waits⟩

/-! ### Pauses -/

/-- A host that comes from one without timers, which no outage takes away, by calls in
any order. -/
inductive Reachable : Host → Prop
  | new {h : Host} (timers : h.timers = .empty) (fired : h.fired = [])
      (outages : h.outages.timers = 0) : Reachable h
  | call {h : Host} (reached : Reachable h) (call : Call) : Reachable (call.serve h)

theorem Reachable.kept (reached : h.Reachable) : ∃ b : TimerBook, Chronicle.Kept ⟨h, b⟩ := by
  induction reached with
  | new timers fired outages => exact ⟨[], Chronicle.kept_new timers fired outages⟩
  | call _ call ih =>
    obtain ⟨b, kept⟩ := ih
    exact ⟨_, (kept.record call).1⟩

theorem setTimeout_facts (h : Host) (d : Duration) :
    (h.setTimeout d).1.clock = h.clock ∧ (h.setTimeout d).1.fired = h.fired
      ∧ (h.setTimeout d).1.completions = h.completions := by
  unfold setTimeout
  split <;> exact ⟨rfl, rfl, rfl⟩

/-- A pause sets its timer and comes to a skip to the deadline of it. -/
theorem sleep_skips (reached : h.Reachable) (d : Duration) :
    ∃ k, Rearranged ((h.setTimeout d).1.skipTo (h.clock.after d)) k ∧ h.sleep d = (k, .ok ()) := by
  obtain ⟨book, kept⟩ := reached.kept
  have owned := (onward_setTimeout h d).owned kept.book.owned
  rw [setTimeout_eq_schedule kept.book.outages] at owned ⊢
  obtain ⟨k, same, waits⟩ := awaitWithin_skips (h.passTimer.schedule d).1.timers.size owned
    (p := ⟨h.clock.after d, h.timers.nextOrder⟩) (List.mem_append_right _ List.mem_cons_self)
    (h.clock.le_after d) (Nat.le_refl _)
  refine ⟨k, same, ?_⟩
  rw [sleep, setTimeout_eq_schedule kept.book.outages]
  exact waits

/-- **A pause is the same as letting its duration pass.** Whatever has been asked of a
host, waiting for a timer of a duration ends well, and leaves the host as setting the
timer and letting the duration pass does: the clock is the duration later, or at the last
instant; the timers that are due by then have fired, with the next sequence numbers in
the order of their deadlines, and the others are pending; all else is as it was. -/
theorem sleep_passes {φ : Type} (b : Bridge φ) (reached : h.Reachable) (d : Duration) :
    let set := h.setTimeout d
    let slept := b.call h (.sleep d)
    slept.2 = .ok .done
      ∧ (∃ n, Waits set.2 n set.1 slept.1 (.ok ()))
      ∧ Rearranged (set.1.advance d) slept.1
      ∧ slept.1.clock.nanos = min (h.clock.nanos + d.nanos) maxWord
      ∧ slept.1.fired = h.fired ++ numberFired h.completions (set.1.timers.due slept.1.clock)
      ∧ slept.1.timers.pending.Perm (set.1.timers.left slept.1.clock) := by
  intro set slept
  obtain ⟨k, same, sleeps⟩ := sleep_skips reached d
  obtain ⟨n, -, waits⟩ := waits_await (answers_setTimeout h d)
  have ends : slept = (k, .ok .done) := by
    show b.call h (.sleep d) = _
    rw [Bridge.call, sleeps]
    rfl
  obtain ⟨clock, fired, completions⟩ := setTimeout_facts h d
  rw [ends]
  refine ⟨rfl, ⟨n, ?_⟩, ?_, ?_⟩
  · rw [show set.1.await set.2 = (k, .ok ()) from sleeps] at waits
    exact waits
  · rw [advance_eq_skipTo, clock]
    exact same
  · obtain ⟨pending, perm, rfl⟩ := same
    refine ⟨rfl, ?_, perm.trans (pending_skipTo _ _)⟩
    rw [← fired, ← completions, skipTo_eq]
    rfl

/-- A host with two timers before it and one at the last instant, after the first has
fired. -/
def crowdedHost : Host :=
  (((Host.empty.setTimeout (.ofNanos 5)).1.setTimeout (.ofNanos 2)).1.setTimeout
    (.ofNanos maxWord)).1.advance (.ofNanos 3)

theorem reachable_crowdedHost : crowdedHost.Reachable :=
  have begun : Host.empty.Reachable := .new rfl rfl rfl
  (((begun.call (.start (.timer (.ofNanos 5)))).call (.start (.timer (.ofNanos 2)))).call
    (.start (.timer (.ofNanos maxWord)))).call (.request (.advance (.ofNanos 3)))

/-- A pause that ends at the last instant, together with a timer that was set before. -/
theorem sleep_passes_crowdedHost :
    let b : Bridge Unit := .ofContext (.spawned 0)
    let slept := b.call crowdedHost (.sleep (.ofNanos maxWord))
    crowdedHost.Reachable ∧ slept.2 = .ok .done ∧ slept.1.clock.nanos = maxWord
      ∧ slept.1.fired = [(1, 0), (0, 1), (2, 2), (3, 3)] ∧ slept.1.timers.pending = [] := by
  intro b slept
  obtain ⟨ends, -, -, clock, -, pending⟩ :=
    sleep_passes b reachable_crowdedHost (.ofNanos maxWord)
  have none_left : (crowdedHost.setTimeout (.ofNanos maxWord)).1.timers.left slept.1.clock = [] := by
    decide +kernel
  refine ⟨reachable_crowdedHost, ends, clock, by decide +kernel, ?_⟩
  rw [none_left] at pending
  exact pending.eq_nil

end Host
end TaskHost
