/-
# The history of the timers

A host is called in any order and by anybody: to serve a context, a file or a fetch, to
set a timer, to pause, to let time pass or to jump to the next deadline (`Host.Call`). A
chronicle notes when each timer was set and for how long, so that its deadline is known
after the timer has fired too (`TimerBook.deadline?`).

A timer fires in the first batch that its deadline falls into, and a batch is sorted
only within itself. What makes the whole history sorted relates the timers that have
fired to those that are pending: every deadline that has passed comes before every one
that has not, and of equal deadlines the one that was set first
(`TimerBook.Kept.before`). Firing preserves this because it leaves no timer pending
whose deadline has come (`TimerBook.kept_fireDue`), and setting a timer does because
its deadline is not in the past and its number is the highest one.

Key definitions: `Host.Call`, `TimerBook`, `Chronicle`, `TimerBook.Kept`.
Key theorems: `TimerBook.kept_fireDue`, `TimerBook.kept_setTimeout`,
`TimerBook.kept_sleep`, `Chronicle.timers_fire_in_order`.
-/
import Mathlib.Data.List.Pairwise
import TaskHost.Proofs.Callers

namespace TaskHost

/-! ### Calls -/

namespace Host

/-- What a host is asked: a request, the start of an operation, or a pause, which ends
when its timer has fired. -/
inductive Call where
  | request (r : Request)
  | start (op : Session.Operation)
  | sleep (delay : Duration)

def Call.serve (h : Host) : Call → Host
  | .request r => r.serve h
  | .start op => (op.serve h).1
  | .sleep delay => (h.sleep delay).1

/-- The delay of the timer that a call sets. -/
def Call.delay? : Call → Option Duration
  | .start (.timer delay) => some delay
  | .sleep delay => some delay
  | _ => none

/-- Whether a call moves time on and fires what is due. -/
def Call.movesTime : Call → Bool
  | .request r => r.movesTime
  | _ => false

end Host

/-- When the timers of a host were set, and their delays, by number. -/
abbrev TimerBook := List (Instant × Duration)

namespace TimerBook

/-- When a timer is due: its delay after it was set, or at the last instant. -/
def deadline? (b : TimerBook) (order : Nat) : Option Instant :=
  b[order]?.map fun entry => entry.1.after entry.2

/-- Deadline and number of a timer, by which timers are put in order. -/
def key (b : TimerBook) (order : Nat) : Nat × Nat :=
  (((b.deadline? order).getD .start).nanos, order)

end TimerBook

/-- A host, and the timers that were set at it. -/
structure Chronicle where
  host : Host
  book : TimerBook

namespace Chronicle

def record (c : Chronicle) (call : Host.Call) : Chronicle :=
  ⟨call.serve c.host, c.book ++ (call.delay?.map fun delay => (c.host.clock, delay)).toList⟩

def recordAll (c : Chronicle) (calls : List Host.Call) : Chronicle := calls.foldl record c

end Chronicle

theorem Host.still_start {h : Host} (op : Session.Operation)
    (none : (Call.start op).delay? = none) : h.Still (op.serve h).1 := by
  cases op with
  | timer delay => cases none
  | read path => exact ⟨rfl, rfl, rfl, Nat.le_succ _, rfl⟩
  | write path contents => exact ⟨rfl, rfl, rfl, Nat.le_succ _, rfl⟩
  | fetch url => exact ⟨rfl, rfl, rfl, Nat.le_succ _, rfl⟩

/-! ### Instants -/

namespace Instant

theorem le_after (t : Instant) (d : Duration) : t ≤ t.after d :=
  Nat.le_min.mpr ⟨Nat.le_add_right _ _, t.nanos_le⟩

theorem le_latest (s t : Instant) : s ≤ s.latest t := by
  unfold latest
  split
  · next le => exact le
  · exact Nat.le_refl s.nanos

end Instant

namespace TimerBook

variable {b : TimerBook} {h k : Host} {order : Nat} {deadline : Instant}

theorem key_eq (due : b.deadline? order = some deadline) : b.key order = (deadline.nanos, order) := by
  rw [key, due]
  rfl

theorem lt_length (due : b.deadline? order = some deadline) : order < b.length := by
  obtain ⟨entry, he, -⟩ := Option.map_eq_some_iff.mp due
  exact (List.getElem?_eq_some_iff.mp he).1

theorem deadline?_append (due : b.deadline? order = some deadline) (entry : Instant × Duration) :
    deadline? (b ++ [entry]) order = some deadline := by
  rw [deadline?, List.getElem?_append_left (lt_length due)]
  exact due

theorem deadline?_concat (b : TimerBook) (t : Instant) (d : Duration) :
    deadline? (b ++ [(t, d)]) b.length = some (t.after d) := by
  rw [deadline?, List.getElem?_concat_length]
  rfl

/-! ### What a book knows of its host -/

/-- A book of all timers of a host: the pending ones are due when it says so; those that
have fired were due by now, and before every pending one; and they fired in the order
of their keys. -/
structure Kept (b : TimerBook) (h : Host) : Prop where
  owned : h.Owned
  outages : h.outages.timers = 0
  numbered : b.length = h.timers.nextOrder
  planned : ∀ p ∈ h.timers.pending, b.deadline? p.order = some p.deadline
  passed : ∀ f ∈ h.fired, f.2 < h.completions
    ∧ ∃ deadline, b.deadline? f.1 = some deadline ∧ deadline ≤ h.clock
  before : ∀ f ∈ h.fired, ∀ p ∈ h.timers.pending, keyLe (b.key f.1) p.key
  sorted : h.fired.Pairwise fun f g => f.2 < g.2 ∧ keyLe (b.key f.1) (b.key g.1)

/-- No deadline of a pending timer is past. -/
def Timely (h : Host) : Prop := ∀ p ∈ h.timers.pending, h.clock ≤ p.deadline

theorem Kept.still (kept : b.Kept h) (still : h.Still k) : b.Kept k where
  owned := still.onward.owned kept.owned
  outages := still.outages.trans kept.outages
  numbered := still.timers ▸ kept.numbered
  planned := still.timers ▸ kept.planned
  passed f hf := by
    obtain ⟨completed, past⟩ := kept.passed f (still.fired ▸ hf)
    exact ⟨Nat.lt_of_lt_of_le completed still.completions, still.clock ▸ past⟩
  before := by
    rw [still.timers, still.fired]
    exact kept.before
  sorted := still.fired ▸ kept.sorted

theorem Timely.still (timely : Timely h) (still : h.Still k) : Timely k := by
  unfold Timely
  rw [still.timers, still.clock]
  exact timely

/-! ### Firing -/

theorem Kept.withClock (kept : b.Kept h) {t : Instant} (le : h.clock ≤ t) :
    b.Kept { h with clock := t } :=
  { kept with
    passed := fun f hf => by
      obtain ⟨completed, deadline, due, past⟩ := kept.passed f hf
      exact ⟨completed, deadline, due, Nat.le_trans past le⟩ }

/-- What is fired of a sorted list of timers. -/
theorem numberFired_facts (seq : Nat) {due : List PendingTimer}
    (planned : ∀ p ∈ due, b.deadline? p.order = some p.deadline)
    (sorted : due.Pairwise fun p q => keyLe p.key q.key) :
    (∀ f ∈ Host.numberFired seq due, seq ≤ f.2 ∧ f.2 < seq + due.length
      ∧ ∃ p ∈ due, p.order = f.1 ∧ b.key f.1 = p.key)
      ∧ (Host.numberFired seq due).Pairwise fun f g =>
        f.2 < g.2 ∧ keyLe (b.key f.1) (b.key g.1) := by
  induction due generalizing seq with
  | nil => exact ⟨fun f hf => absurd hf List.not_mem_nil, List.Pairwise.nil⟩
  | cons p rest ih =>
    obtain ⟨first, sorted⟩ := List.pairwise_cons.mp sorted
    obtain ⟨rest_facts, rest_sorted⟩ :=
      ih (seq + 1) (fun q hq => planned q (List.mem_cons_of_mem p hq)) sorted
    have key_p : b.key p.order = p.key := key_eq (planned p List.mem_cons_self)
    refine ⟨fun f hf => ?_, List.pairwise_cons.mpr ⟨fun f hf => ?_, rest_sorted⟩⟩
    · rcases List.mem_cons.mp hf with rfl | hf
      · exact ⟨Nat.le_refl _, Nat.lt_add_of_pos_right (Nat.succ_pos _), p, List.mem_cons_self,
          rfl, key_p⟩
      · obtain ⟨low, high, q, hq, same⟩ := rest_facts f hf
        exact ⟨by omega, by rw [List.length_cons]; omega, q, List.mem_cons_of_mem p hq, same⟩
    · obtain ⟨low, -, q, hq, -, key_q⟩ := rest_facts f hf
      refine ⟨by show seq < f.2; omega, ?_⟩
      show keyLe (b.key p.order) (b.key f.1)
      rw [key_p, key_q]
      exact first q hq

/-- Firing what is due keeps the book, and leaves no deadline that has come. -/
theorem kept_fireDue (kept : b.Kept h) :
    b.Kept h.fireDue ∧ ∀ p ∈ h.fireDue.timers.pending, h.clock < p.deadline := by
  obtain ⟨taken, left⟩ := TimerQueue.takeDue_perm h.timers h.clock
  have taken_mem : ∀ p ∈ (h.timers.takeDue h.clock).1,
      p ∈ h.timers.pending ∧ p.deadline ≤ h.clock := by
    intro p hp
    simpa using taken.mem_iff.mp hp
  have left_mem : ∀ p ∈ (h.timers.takeDue h.clock).2.pending,
      p ∈ h.timers.pending ∧ h.clock < p.deadline := by
    intro p hp
    obtain ⟨pending, later⟩ := List.mem_filter.mp (left.mem_iff.mp hp)
    exact ⟨pending, Nat.lt_of_not_le (by simpa using later : ¬ p.deadline ≤ h.clock)⟩
  obtain ⟨new, new_sorted⟩ := numberFired_facts (b := b) h.completions
    (fun p hp => kept.planned p (taken_mem p hp).1) (pairwise_sortByKey PendingTimer.key _)
  refine ⟨?_, fun p hp => (left_mem p hp).2⟩
  exact
    { owned := (Host.onward_fireDue h).owned kept.owned
      outages := kept.outages
      numbered := kept.numbered
      planned := fun p hp => kept.planned p (left_mem p hp).1
      passed := fun f hf => by
        rcases List.mem_append.mp hf with hf | hf
        · obtain ⟨completed, past⟩ := kept.passed f hf
          exact ⟨Nat.lt_of_lt_of_le completed (Nat.le_add_right _ _), past⟩
        · obtain ⟨-, high, p, hp, same, -⟩ := new f hf
          obtain ⟨pending, past⟩ := taken_mem p hp
          exact ⟨high, p.deadline, same ▸ kept.planned p pending, past⟩
      before := fun f hf p hp => by
        obtain ⟨pending, later⟩ := left_mem p hp
        rcases List.mem_append.mp hf with hf | hf
        · exact kept.before f hf p pending
        · obtain ⟨-, -, q, hq, -, key_q⟩ := new f hf
          rw [key_q, keyLe_iff]
          exact Or.inl (Nat.lt_of_le_of_lt (taken_mem q hq).2 later)
      sorted := by
        refine List.pairwise_append.mpr ⟨kept.sorted, new_sorted, fun f hf g hg => ?_⟩
        obtain ⟨low, -, q, hq, -, key_q⟩ := new g hg
        refine ⟨Nat.lt_of_lt_of_le (kept.passed f hf).1 low, ?_⟩
        rw [key_q]
        exact kept.before f hf q (taken_mem q hq).1 }

/-- After firing, a timer whose deadline has come is complete. -/
theorem complete_fireDue (kept : b.Kept h) (due : b.deadline? order = some deadline)
    (past : deadline ≤ h.clock) :
    ∃ seq, h.fireDue.completion? (.scheduled order) = some ⟨seq, .ok ()⟩ := by
  obtain ⟨after, later⟩ := kept_fireDue kept
  have given : order < h.fireDue.timers.nextOrder := after.numbered ▸ lt_length due
  rcases after.owned.scheduled given with ⟨⟨p, pending, rfl⟩, -⟩ | ⟨-, complete⟩
  · have same := (after.planned p pending).symm.trans due
    obtain rfl := Option.some.inj same
    exact absurd (later p pending) (Nat.not_lt_of_le past)
  · exact complete

theorem kept_advance (kept : b.Kept h) (d : Duration) :
    b.Kept (h.advance d) ∧ Timely (h.advance d) ∧ h.clock ≤ (h.advance d).clock := by
  have moved := kept.withClock (h.clock.le_after d)
  obtain ⟨after, later⟩ := kept_fireDue moved
  exact ⟨after, fun p hp => Nat.le_of_lt (later p hp), h.clock.le_after d⟩

theorem kept_drive (kept : b.Kept h) (timely : Timely h) :
    b.Kept h.drive.1 ∧ Timely h.drive.1 ∧ h.clock ≤ h.drive.1.clock := by
  unfold Host.drive
  split
  · exact ⟨kept, timely, Nat.le_refl _⟩
  · next deadline _ =>
    have moved := kept.withClock (h.clock.le_latest deadline)
    obtain ⟨after, later⟩ := kept_fireDue moved
    exact ⟨after, fun p hp => Nat.le_of_lt (later p hp), h.clock.le_latest deadline⟩

/-- After a drive too. If it fired nothing, nothing was pending. -/
theorem complete_drive (kept : b.Kept h) (due : b.deadline? order = some deadline)
    (past : deadline ≤ h.drive.1.clock) :
    ∃ seq, h.drive.1.completion? (.scheduled order) = some ⟨seq, .ok ()⟩ := by
  unfold Host.drive at past ⊢
  split at past
  · next idle =>
    have none_pending := TimerQueue.nextDeadline?_eq_none_iff.mp idle
    rcases kept.owned.scheduled (kept.numbered ▸ lt_length due) with ⟨⟨p, pending, -⟩, -⟩ | ⟨-, complete⟩
    · rw [none_pending] at pending
      cases pending
    · exact complete
  · next next _ => exact complete_fireDue (kept.withClock (h.clock.le_latest next)) due past

/-- After any call that moves time. -/
theorem Kept.complete_serve (kept : b.Kept h) (due : b.deadline? order = some deadline)
    {call : Host.Call} (moves : call.movesTime) (past : deadline ≤ (call.serve h).clock) :
    ∃ seq, (call.serve h).completion? (.scheduled order) = some ⟨seq, .ok ()⟩ := by
  cases call with
  | request r =>
    cases r with
    | advance d => exact complete_fireDue (kept.withClock (h.clock.le_after d)) due past
    | drive => exact complete_drive kept due past
    | _ => cases moves
  | start op => cases moves
  | sleep delay => cases moves

/-! ### Timers that are complete -/

theorem mem_of_completion? {done : Completion Unit}
    (complete : h.completion? (.scheduled order) = some done) : (order, done.seq) ∈ h.fired := by
  obtain ⟨seq, found, rfl⟩ := Option.map_eq_some_iff.mp complete
  obtain ⟨before, after, whole, -⟩ := List.lookup_eq_some_iff.mp found
  rw [whole]
  exact List.mem_append_right before List.mem_cons_self

theorem Kept.past_of_complete (kept : b.Kept h) (due : b.deadline? order = some deadline)
    (complete : (h.completion? (.scheduled order)).isSome) : deadline ≤ h.clock := by
  obtain ⟨done, complete⟩ := Option.isSome_iff_exists.mp complete
  obtain ⟨-, at', due', past⟩ := kept.passed _ (mem_of_completion? complete)
  obtain rfl := Option.some.inj (due'.symm.trans due)
  exact past

/-- Sequence numbers are in the order of deadlines and numbers. -/
theorem Kept.seq_le_iff (kept : b.Kept h) {i j m n : Nat}
    (hi : h.completion? (.scheduled i) = some ⟨m, .ok ()⟩)
    (hj : h.completion? (.scheduled j) = some ⟨n, .ok ()⟩) :
    m ≤ n ↔ keyLe (b.key i) (b.key j) := by
  let Ordered (f g : Nat × Nat) : Prop := f.2 < g.2 ∧ keyLe (b.key f.1) (b.key g.1)
  let Linear (f g : Nat × Nat) : Prop := f = g ∨ Ordered f g ∨ Ordered g f
  have symm : Std.Symm Linear := ⟨fun f g fg => fg.imp Eq.symm Or.symm⟩
  have linear := List.Pairwise.forall_of_forall (R := Linear) (fun f _ => Or.inl rfl)
    (kept.sorted.imp fun fg => Or.inr (Or.inl fg))
  rcases linear (mem_of_completion? hi) (mem_of_completion? hj) with same | ⟨lt, le⟩ | ⟨lt, le⟩
  · obtain ⟨rfl, rfl⟩ := Prod.mk.inj same
    exact iff_of_true (Nat.le_refl m) (keyLe_iff.mpr (Or.inr ⟨rfl, Nat.le_refl _⟩))
  · exact iff_of_true (Nat.le_of_lt lt) le
  · refine iff_of_false (Nat.not_le_of_lt lt) fun ge => ?_
    -- keys that are not in order either way are equal, and so are then the timers
    have same : i = j := by
      rw [keyLe_iff] at le ge
      simp only [key] at le ge
      omega
    obtain rfl := same
    obtain ⟨rfl, -⟩ := Completion.mk.inj (Option.some.inj (hi.symm.trans hj))
    exact Nat.lt_irrefl m lt

/-! ### Setting timers -/

theorem kept_setTimeout (kept : b.Kept h) (timely : Timely h) (delay : Duration) :
    Kept (b ++ [(h.clock, delay)]) (h.setTimeout delay).1 ∧ Timely (h.setTimeout delay).1 := by
  have onward := Host.onward_setTimeout h delay
  have later := h.clock.le_after delay
  rw [Host.setTimeout_eq_schedule kept.outages] at onward ⊢
  have key_fired : ∀ f ∈ h.fired, key (b ++ [(h.clock, delay)]) f.1 = b.key f.1 := by
    intro f hf
    obtain ⟨-, deadline, due, -⟩ := kept.passed f hf
    rw [key_eq due, key_eq (deadline?_append due _)]
  refine ⟨?_, fun p hp => ?_⟩
  · exact
      { owned := onward.owned kept.owned
        outages := Nat.le_zero.mp (kept.outages ▸ onward.outages)
        numbered := List.length_append.trans (congrArg (· + 1) kept.numbered)
        planned := fun p hp => by
          rcases List.mem_append.mp hp with hp | hp
          · exact deadline?_append (kept.planned p hp) _
          · obtain rfl := List.mem_singleton.mp hp
            show deadline? _ h.timers.nextOrder = _
            rw [← kept.numbered]
            exact deadline?_concat b h.clock delay
        passed := fun f hf => by
          obtain ⟨completed, deadline, due, past⟩ := kept.passed f hf
          exact ⟨completed, deadline, deadline?_append due _, past⟩
        before := fun f hf p hp => by
          rw [key_fired f hf]
          rcases List.mem_append.mp hp with hp | hp
          · exact kept.before f hf p hp
          · obtain rfl := List.mem_singleton.mp hp
            obtain ⟨-, deadline, due, past⟩ := kept.passed f hf
            have low : f.1 < h.timers.nextOrder := kept.numbered ▸ lt_length due
            rw [key_eq due, keyLe_iff]
            -- the new deadline may be the present, where a timer that fired had its own
            rcases Nat.lt_or_eq_of_le (Nat.le_trans past later) with lt | eq
            · exact Or.inl lt
            · exact Or.inr ⟨eq, Nat.le_of_lt low⟩
        sorted := kept.sorted.imp_of_mem fun {f g} hf hg fg => by
          rw [key_fired f hf, key_fired g hg]
          exact fg }
  · rcases List.mem_append.mp hp with hp | hp
    · exact timely p hp
    · obtain rfl := List.mem_singleton.mp hp
      exact later

theorem kept_awaitWithin (fuel : Nat) (kept : b.Kept h) (timely : Timely h) (σ : Signal) :
    b.Kept (h.awaitWithin fuel σ).1 ∧ Timely (h.awaitWithin fuel σ).1
      ∧ h.clock ≤ (h.awaitWithin fuel σ).1.clock := by
  induction fuel generalizing h with
  | zero =>
    unfold Host.awaitWithin
    split <;> exact ⟨kept, timely, Nat.le_refl _⟩
  | succ fuel ih =>
    have driven := kept_drive kept timely
    unfold Host.awaitWithin
    split
    · exact ⟨kept, timely, Nat.le_refl _⟩
    · simp only
      split
      · next k hk =>
        rw [hk] at driven
        obtain ⟨kept, timely, le⟩ := driven
        obtain ⟨kept, timely, le'⟩ := ih kept timely
        exact ⟨kept, timely, Nat.le_trans le le'⟩
      · next k hk =>
        rw [hk] at driven
        exact driven

theorem kept_sleep (kept : b.Kept h) (timely : Timely h) (delay : Duration) :
    Kept (b ++ [(h.clock, delay)]) (h.sleep delay).1 ∧ Timely (h.sleep delay).1
      ∧ h.clock ≤ (h.sleep delay).1.clock := by
  obtain ⟨kept', timely'⟩ := kept_setTimeout kept timely delay
  obtain ⟨kept'', timely'', le⟩ :=
    kept_awaitWithin (h.setTimeout delay).1.timers.size kept' timely' (h.setTimeout delay).2
  refine ⟨kept'', timely'', ?_⟩
  rw [show h.clock = (h.setTimeout delay).1.clock by
    rw [Host.setTimeout_eq_schedule kept.outages]; rfl]
  exact le

end TimerBook

/-! ### Whole histories -/

namespace Chronicle

variable {c : Chronicle}

/-- What holds of a chronicle after any calls. -/
structure Kept (c : Chronicle) : Prop where
  book : c.book.Kept c.host
  timely : TimerBook.Timely c.host

theorem kept_new {h : Host} (timers : h.timers = .empty) (fired : h.fired = [])
    (outages : h.outages.timers = 0) : Kept ⟨h, []⟩ := by
  have idle : h.timers.pending = [] := congrArg TimerQueue.pending timers
  refine ⟨⟨Host.owned_new timers fired, outages, congrArg TimerQueue.nextOrder timers.symm,
    ?_, ?_, ?_, ?_⟩, fun p hp => ?_⟩
  · exact fun p hp => absurd hp (idle ▸ List.not_mem_nil)
  · exact fun f hf => absurd hf (fired ▸ List.not_mem_nil)
  · exact fun f hf => absurd hf (fired ▸ List.not_mem_nil)
  · exact fired ▸ List.Pairwise.nil
  · exact absurd hp (idle ▸ List.not_mem_nil)

/-- A call keeps the chronicle, and the clock does not go back. -/
theorem Kept.record (kept : c.Kept) (call : Host.Call) :
    (c.record call).Kept ∧ c.host.clock ≤ (c.record call).host.clock := by
  have unset {k : Host} (facts : c.book.Kept k ∧ TimerBook.Timely k ∧ c.host.clock ≤ k.clock) :
      Kept ⟨k, c.book ++ []⟩ ∧ c.host.clock ≤ k.clock := by
    rw [List.append_nil]
    exact ⟨⟨facts.1, facts.2.1⟩, facts.2.2⟩
  have still {k : Host} (untouched : c.host.Still k) :
      Kept ⟨k, c.book ++ []⟩ ∧ c.host.clock ≤ k.clock :=
    unset ⟨kept.book.still untouched, kept.timely.still untouched,
      Nat.le_of_eq (congrArg Instant.nanos untouched.clock.symm)⟩
  cases call with
  | request r =>
    cases moves : r.movesTime with
    | false => exact still (r.still_serve c.host moves)
    | true =>
      cases r with
      | advance d => exact unset (TimerBook.kept_advance kept.book d)
      | drive => exact unset (TimerBook.kept_drive kept.book kept.timely)
      | _ => cases moves
  | start op =>
    cases op with
    | timer delay =>
      obtain ⟨book, timely⟩ := TimerBook.kept_setTimeout kept.book kept.timely delay
      refine ⟨⟨book, timely⟩, Nat.le_of_eq ?_⟩
      show _ = (c.host.setTimeout delay).1.clock.nanos
      rw [Host.setTimeout_eq_schedule kept.book.outages]
      rfl
    | read path => exact still (Host.still_start (.read path) rfl)
    | write path contents => exact still (Host.still_start (.write path contents) rfl)
    | fetch url => exact still (Host.still_start (.fetch url) rfl)
  | sleep delay =>
    obtain ⟨book, timely, le⟩ := TimerBook.kept_sleep kept.book kept.timely delay
    exact ⟨⟨book, timely⟩, le⟩

theorem Kept.recordAll (kept : c.Kept) (calls : List Host.Call) :
    (c.recordAll calls).Kept ∧ c.host.clock ≤ (c.recordAll calls).host.clock := by
  induction calls generalizing c with
  | nil => exact ⟨kept, Nat.le_refl _⟩
  | cons call rest ih =>
    obtain ⟨kept, le⟩ := kept.record call
    obtain ⟨kept, le'⟩ := ih kept
    exact ⟨kept, Nat.le_trans le le'⟩

/-- **Timers keep time.** Whatever is asked of a host that starts without timers, and in
whatever order: the clock does not go back; no pending deadline is past; the book has a
line for each timer; a timer is complete only when its deadline has come, and is
complete whenever time was moved to its deadline or beyond; and the sequence numbers of
the timers that are complete are in the order of their deadlines and, for one deadline,
in the order in which they were set. -/
theorem timers_fire_in_order {h : Host} (timers : h.timers = .empty) (fired : h.fired = [])
    (outages : h.outages.timers = 0) (calls : List Host.Call) :
    let c := recordAll ⟨h, []⟩ calls
    (∀ more, c.host.clock ≤ (c.recordAll more).host.clock)
      ∧ (∀ p ∈ c.host.timers.pending, c.host.clock ≤ p.deadline)
      ∧ (∀ delay, (c.host.setTimeout delay).2 = .scheduled c.book.length)
      ∧ (∀ i t d, c.book[i]? = some (t, d) →
        ((c.host.completion? (.scheduled i)).isSome →
          min (t.nanos + d.nanos) maxWord ≤ c.host.clock.nanos)
        ∧ ∀ call : Host.Call, call.movesTime →
          min (t.nanos + d.nanos) maxWord ≤ (call.serve c.host).clock.nanos →
          ∃ seq, (call.serve c.host).completion? (.scheduled i) = some ⟨seq, .ok ()⟩)
      ∧ ∀ i j m n, c.host.completion? (.scheduled i) = some ⟨m, .ok ()⟩ →
        c.host.completion? (.scheduled j) = some ⟨n, .ok ()⟩ →
        (m ≤ n ↔ keyLe (c.book.key i) (c.book.key j)) := by
  intro c
  obtain ⟨kept, -⟩ := (kept_new timers fired outages).recordAll calls
  refine ⟨fun more => (kept.recordAll more).2, kept.timely, fun delay => ?_, fun i t d hi => ?_,
    fun i j m n hi hj => kept.book.seq_le_iff hi hj⟩
  · rw [Host.setTimeout_eq_schedule kept.book.outages]
    exact congrArg Signal.scheduled kept.book.numbered.symm
  · have due : c.book.deadline? i = some (t.after d) := congrArg (Option.map _) hi
    exact ⟨fun complete => kept.book.past_of_complete due complete,
      fun call moves past => kept.book.complete_serve due moves past⟩

/-- Four timers in three batches; the first one and the last one fall due together. -/
def overlappingTimers : List Host.Call :=
  [.start (.timer (.ofNanos 5)), .start (.timer (.ofNanos 2)), .request (.advance (.ofNanos 3)),
    .start (.timer (.ofNanos 2)), .sleep .zero, .request .drive]

theorem timers_fire_in_order_overlapping :
    let c := recordAll ⟨.empty, []⟩ overlappingTimers
    c.host.fired = [(1, 0), (3, 1), (0, 2), (2, 3)] ∧ keyLe (c.book.key 0) (c.book.key 2) := by
  intro c
  have fired : c.host.fired = [(1, 0), (3, 1), (0, 2), (2, 3)] := by decide +kernel
  have first : c.host.completion? (.scheduled 0) = some ⟨2, .ok ()⟩ := by
    rw [Host.completion?, fired]
    rfl
  have last : c.host.completion? (.scheduled 2) = some ⟨3, .ok ()⟩ := by
    rw [Host.completion?, fired]
    rfl
  obtain ⟨-, -, -, -, ordered⟩ := timers_fire_in_order (h := .empty) rfl rfl rfl overlappingTimers
  exact ⟨fired, (ordered 0 2 2 3 first last).mp (by decide)⟩

end Chronicle
end TaskHost
