/-
# Waits and polls, drive by drive

A wait looks at a signal and, while the signal has no outcome, drives the host and
looks again; when a drive fires nothing it blocks (`Host.Waits`). A poll of a bridge
does the same with the timers of the bridge (`Bridge.Polls`). Neither of them counts
its drives beforehand; a wait that blocks for ever has no derivation. Every drive
fires a timer as long as one is pending, so a wait for a signal that will be
answered, and a poll of timers that will be, end after at most as many drives as
timers are pending, with what `Host.await` and `Bridge.poll` give.

Key definitions: `Host.Waits`, `Bridge.Polls`.
Key theorems: `Host.waits_await`, `Host.sleep_eq_ok`, `Bridge.polls_poll`.
-/
import TaskHost.Proofs.Polling

namespace TaskHost

/-! ### Driving -/

namespace Host

/-- A drive tells that it fired a timer exactly if one was pending. -/
theorem drive_eq_true_iff (h : Host) : h.drive.2 = true ↔ h.timers.pending ≠ [] := by
  constructor
  · intro fired
    rw [Ne, ← TimerQueue.nextDeadline?_eq_none_iff]
    intro idle
    unfold drive at fired
    rw [idle] at fired
    cases fired
  · intro pending
    have fewer := Bridge.size_drive_lt pending
    unfold drive at fewer ⊢
    cases hd : h.timers.nextDeadline? with
    | none => exact absurd (TimerQueue.nextDeadline?_eq_none_iff.mp hd) pending
    | some d =>
      rw [hd] at fewer
      exact decide_eq_true fewer

theorem drive_of_pending {h : Host} (pending : h.timers.pending ≠ []) :
    h.drive = (h.drive.1, true) ∧ h.drive.1.timers.size < h.timers.size :=
  ⟨Prod.ext rfl ((drive_eq_true_iff h).mpr pending), Bridge.size_drive_lt pending⟩

theorem pending_of_answers {h : Host} {σ : Signal} (answered : h.Answers σ)
    (open' : h.completion? σ = none) : h.timers.pending ≠ [] := by
  cases σ with
  | cancelled => cases open'
  | scheduled order =>
    rcases answered with ⟨t, ht, -⟩ | fired
    · exact List.ne_nil_of_mem ht
    · rw [completion?, Option.map_eq_none_iff] at open'
      rw [open'] at fired
      cases fired

/-! ### Waiting for a signal -/

/-- A wait for a signal that makes a number of drives and leaves a host and a result.
If a drive fires nothing the wait blocks, and goes on at once only if the signal has
its outcome by then. -/
inductive Waits (σ : Signal) : Nat → Host → Host → Except HostError Unit → Prop
  | done {h : Host} {c : Completion Unit} (found : h.completion? σ = some c) :
      Waits σ 0 h h c.result
  | drove {n : Nat} {h k l : Host} {r : Except HostError Unit} (missed : h.completion? σ = none)
      (fired : h.drive = (k, true)) (rest : Waits σ n k l r) : Waits σ (n + 1) h l r
  | blocked {h k : Host} {c : Completion Unit} (missed : h.completion? σ = none)
      (idle : h.drive = (k, false)) (found : k.completion? σ = some c) : Waits σ 1 h k c.result

theorem waits_awaitWithin {σ : Signal} {h : Host} (answered : h.Answers σ) (fuel : Nat)
    (enough : h.timers.size ≤ fuel) :
    ∃ n ≤ h.timers.size, Waits σ n h (awaitWithin fuel h σ).1 (awaitWithin fuel h σ).2 := by
  induction fuel generalizing h with
  | zero =>
    unfold awaitWithin
    cases hc : h.completion? σ with
    | some c => exact ⟨0, Nat.zero_le _, .done hc⟩
    | none =>
      have idle : h.timers.pending = [] := List.eq_nil_of_length_eq_zero (Nat.le_zero.mp enough)
      exact absurd idle (pending_of_answers answered hc)
  | succ fuel ih =>
    unfold awaitWithin
    cases hc : h.completion? σ with
    | some c => exact ⟨0, Nat.zero_le _, .done hc⟩
    | none =>
      obtain ⟨fired, fewer⟩ := drive_of_pending (pending_of_answers answered hc)
      obtain ⟨n, few, rest⟩ := ih ((later_drive h).answers σ answered) (by omega)
      rw [fired]
      exact ⟨n + 1, by omega, .drove hc fired rest⟩

/-- A wait for a signal that will be answered ends, after at most as many drives as
timers are pending. -/
theorem waits_await {σ : Signal} {h : Host} (answered : h.Answers σ) :
    ∃ n ≤ h.timers.size, Waits σ n h (h.await σ).1 (h.await σ).2 :=
  waits_awaitWithin answered h.timers.size (Nat.le_refl _)

theorem Waits.result {σ : Signal} {n : Nat} {h k : Host} {r : Except HostError Unit}
    (waits : Waits σ n h k r) (scheduled : σ ≠ .cancelled) : r = .ok () := by
  induction waits with
  | done found => exact result_of_completion? found scheduled
  | drove missed fired rest ih => exact ih
  | blocked missed idle found => exact result_of_completion? found scheduled

theorem setTimeout_eq_schedule {h : Host} (outages : h.outages.timers = 0) (delay : Duration) :
    h.setTimeout delay = h.passTimer.schedule delay := by
  unfold setTimeout
  rw [if_neg (by omega)]

/-- A pause ends well, unless an outage is in the way. -/
theorem sleep_eq_ok {h : Host} (outages : h.outages.timers = 0) (delay : Duration) :
    (h.sleep delay).2 = .ok () := by
  obtain ⟨n, -, waits⟩ := waits_await (answers_setTimeout h delay)
  refine waits.result ?_
  rw [setTimeout_eq_schedule outages]
  exact fun e => by cases e

end Host

/-! ### Polling a bridge -/

namespace Bridge

variable {φ : Type}

/-- A poll that makes a number of drives and hands out timers, or none if no timer is
waiting. If a drive fires nothing the poll blocks, and goes on at once only if the
first of its timers has its outcome by then. -/
inductive Polls : Nat → Bridge φ → Host → List (ReadyTimer φ) → Bridge φ → Host → Prop
  | idle {b : Bridge φ} {h : Host} (none : b.timers.waiting = []) : Polls 0 b h [] b h
  | found {b c : Bridge φ} {h : Host} {r : ReadyTimer φ} {rest : List (ReadyTimer φ)}
      (ready : b.takeReady h = (r :: rest, c)) : Polls 0 b h (r :: rest) c h
  | drove {n : Nat} {b c d : Bridge φ} {h k l : Host} {ready : List (ReadyTimer φ)}
      (some : b.timers.waiting ≠ []) (missed : b.takeReady h = ([], c))
      (fired : h.drive = (k, true)) (rest : Polls n c k ready d l) : Polls (n + 1) b h ready d l
  | blocked {n : Nat} {b c d : Bridge φ} {h k l : Host} {ready : List (ReadyTimer φ)}
      {w : WaitingTimer Signal φ} (missed : b.takeReady h = ([], c)) (idle : h.drive = (k, false))
      (first : c.timers.waiting.head? = some w) (found : (k.completion? w.signal).isSome)
      (rest : Polls n c k ready d l) : Polls (n + 1) b h ready d l

theorem polls_pollWithin {b : Bridge φ} {h : Host}
    (answered : ∀ w ∈ b.timers.waiting, h.Answers w.signal) (fuel : Nat)
    (enough : h.timers.size ≤ fuel) :
    ∃ n ≤ h.timers.size, Polls n b h (b.pollWithin fuel h).1 (b.pollWithin fuel h).2.1
      (b.pollWithin fuel h).2.2 := by
  induction fuel generalizing h with
  | zero =>
    unfold pollWithin
    by_cases hw : b.timers.waiting = []
    · rw [hw]
      exact ⟨0, Nat.zero_le _, .idle hw⟩
    · rw [if_neg (by simpa using hw)]
      split
      · next r rest c hr => exact ⟨0, Nat.zero_le _, .found hr⟩
      · next c hr =>
        have idle : h.timers.pending = [] := List.eq_nil_of_length_eq_zero (Nat.le_zero.mp enough)
        exact absurd idle (pending_of_takeReady answered hw (by rw [hr]))
  | succ fuel ih =>
    unfold pollWithin
    by_cases hw : b.timers.waiting = []
    · rw [hw]
      exact ⟨0, Nat.zero_le _, .idle hw⟩
    · rw [if_neg (by simpa using hw)]
      split
      · next r rest c hr => exact ⟨0, Nat.zero_le _, .found hr⟩
      · next c hr =>
        obtain ⟨fired, fewer⟩ :=
          Host.drive_of_pending (pending_of_takeReady answered hw (by rw [hr]))
        obtain rfl := takeReady_eq_self hr
        obtain ⟨n, few, rest⟩ :=
          ih (fun w hw => (Host.later_drive h).answers _ (answered w hw)) (by omega)
        exact ⟨n + 1, by omega, .drove hw hr fired rest⟩

/-- A poll of timers that will be answered ends, after at most as many drives as
timers are pending. -/
theorem polls_poll {b : Bridge φ} {h : Host}
    (answered : ∀ w ∈ b.timers.waiting, h.Answers w.signal) :
    ∃ n ≤ h.timers.size, Polls n b h (b.poll h).1 (b.poll h).2.1 (b.poll h).2.2 :=
  polls_pollWithin answered h.timers.size (Nat.le_refl _)

end Bridge
end TaskHost
