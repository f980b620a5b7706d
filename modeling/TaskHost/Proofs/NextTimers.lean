/-
# A poll hands out the next timers

A bridge shares its host with others, who may set timers and let time pass as they like
(`Bridge.InUse`). Its waiting timers are in the order of their ids, and that is also the
order of the numbers that the host gave them (`Bridge.Linked`).

If timers of the bridge are complete, a poll hands them out, in the order in which they
completed. Otherwise it jumps from deadline to deadline, past those of other bridges.
None of these jumps goes beyond the earliest deadline of the bridge's own timers, so the
poll comes to one skip to this deadline (`Bridge.pollWithin_skips`): it hands out exactly
the timers that are due then (`Bridge.poll_hands_out_next`).

Key definitions: `Host.deadline?`, `Bridge.InUse`, `Bridge.Linked`, `Bridge.Delivers`.
Key theorems: `Bridge.InUse.linked`, `Bridge.pollWithin_skips`,
`Bridge.delivers_takeReady`, `Bridge.poll_hands_out_next`.
-/
import Mathlib.Data.Nat.Find
import TaskHost.Proofs.Skips

namespace TaskHost

variable {φ : Type}

theorem TimerBook.Kept.seq_ne {book : TimerBook} {h : Host} (kept : book.Kept h) {i j : Nat}
    (apart : i ≠ j) {c d : Completion Unit} (hi : h.completion? (.scheduled i) = some c)
    (hj : h.completion? (.scheduled j) = some d) : c.seq ≠ d.seq := by
  obtain ⟨m, fired, rfl⟩ := Option.map_eq_some_iff.mp hi
  obtain ⟨n, fired', rfl⟩ := Option.map_eq_some_iff.mp hj
  intro same
  obtain rfl : m = n := same
  have le := (kept.seq_le_iff hi hj).mp (Nat.le_refl m)
  have ge := (kept.seq_le_iff hj hi).mp (Nat.le_refl m)
  exact apart (congrArg Prod.snd (keyLe_antisymm le ge))

namespace Host

variable {h k : Host}

/-- The deadline of the pending timer that a signal belongs to. -/
def deadline? (h : Host) : Signal → Option Instant
  | .cancelled => none
  | .scheduled order => (h.timers.pending.find? fun t => t.order = order).map PendingTimer.deadline

theorem Owned.deadline?_eq (owned : h.Owned) {p : PendingTimer} (pending : p ∈ h.timers.pending) :
    h.deadline? (.scheduled p.order) = some p.deadline := by
  cases found : h.timers.pending.find? fun t => t.order = p.order with
  | none => exact absurd (decide_eq_true rfl) (List.find?_eq_none.mp found p pending)
  | some q =>
    have same : q.order = p.order := by simpa using List.find?_some found
    obtain rfl := owned.eq_of_order (List.mem_of_find?_eq_some found) pending same
    simp only [deadline?, found, Option.map_some]

/-! ### Calls of others -/

theorem onward_awaitWithin (fuel : Nat) (h : Host) (σ : Signal) :
    Onward h (h.awaitWithin fuel σ).1 := by
  induction fuel generalizing h with
  | zero =>
    unfold awaitWithin
    split <;> exact .refl h
  | succ fuel ih =>
    have driven := onward_drive h
    unfold awaitWithin
    split
    · exact .refl h
    · simp only
      split
      · next k hk => rw [hk] at driven; exact driven.trans (ih k)
      · next k hk => rw [hk] at driven; exact driven

theorem Call.onward_serve (h : Host) (call : Call) : Onward h (call.serve h) := by
  cases call with
  | request r => exact r.onward_serve h
  | start op => exact op.onward_serve h
  | sleep d => exact (onward_setTimeout h d).trans (onward_awaitWithin _ _ _)

end Host

/-- A timer that was set before another one, at the bridge and at the host. -/
def WaitingTimer.Before (v w : WaitingTimer Signal φ) : Prop :=
  v.id.number < w.id.number
    ∧ ∀ i j, v.signal = .scheduled i → w.signal = .scheduled j → i < j

namespace Bridge

variable {b : Bridge φ} {h k : Host} {D : Instant}

/-! ### Bridges in use -/

/-- A bridge and its host at some time: the bridge is opened on a host; others call the
host; timers are set at the bridge, and handed out. -/
inductive InUse : Bridge φ → Host → Prop
  | opened {h : Host} (reached : h.Reachable) (context : ContextId) : InUse (.ofContext context) h
  | called {b : Bridge φ} {h : Host} (used : InUse b h) (call : Host.Call) : InUse b (call.serve h)
  | set {b : Bridge φ} {h : Host} (used : InUse b h) (delay : Duration) (callback : φ) :
      InUse (b.setTimeout h delay callback).1 (b.setTimeout h delay callback).2.1
  | taken {b : Bridge φ} {h : Host} (used : InUse b h) : InUse (b.takeReady h).2 h
  | polled {b : Bridge φ} {h : Host} (used : InUse b h) : InUse (b.poll h).2.1 (b.poll h).2.2

/-- What holds of a bridge in use: the host has scheduled its timers, which wait in the
order in which they were set. -/
structure Linked (b : Bridge φ) (h : Host) : Prop where
  reached : h.Reachable
  issued : ∀ w ∈ b.timers.waiting, h.Issued w.signal ∧ w.id.number < b.timers.nextId
  ordered : b.timers.waiting.Pairwise WaitingTimer.Before

theorem linked_opened (reached : h.Reachable) (context : ContextId) :
    (ofContext context : Bridge φ).Linked h :=
  ⟨reached, fun _ hw => absurd hw List.not_mem_nil, List.Pairwise.nil⟩

theorem Linked.onward (linked : b.Linked h) (reached : k.Reachable) (onward : h.Onward k) :
    b.Linked k :=
  ⟨reached, fun w hw => ⟨(linked.issued w hw).1.onward onward, (linked.issued w hw).2⟩,
    linked.ordered⟩

theorem Linked.takeReady (linked : b.Linked h) : (b.takeReady h).2.Linked h :=
  ⟨linked.reached, fun w hw => linked.issued w (List.mem_filter.mp hw).1,
    linked.ordered.filter _⟩

theorem Linked.setTimeout (linked : b.Linked h) (delay : Duration) (callback : φ) :
    (b.setTimeout h delay callback).1.Linked (b.setTimeout h delay callback).2.1 := by
  obtain ⟨book, kept⟩ := linked.reached.kept
  have outages := kept.book.outages
  have reached : (h.setTimeout delay).1.Reachable := linked.reached.call (.start (.timer delay))
  have onward := Host.onward_setTimeout h delay
  have new := Host.issued_setTimeout outages delay
  have number : (h.setTimeout delay).2 = .scheduled h.timers.nextOrder := by
    rw [Host.setTimeout_eq_schedule outages]
    rfl
  refine ⟨reached, fun w hw => ?_, ?_⟩
  · rcases List.mem_append.mp hw with old | added
    · exact ⟨(linked.issued w old).1.onward onward, Nat.lt_succ_of_lt (linked.issued w old).2⟩
    · obtain rfl := List.mem_singleton.mp added
      exact ⟨new, Nat.lt_succ_self _⟩
  · refine List.pairwise_append.mpr ⟨linked.ordered, List.pairwise_singleton _ _, fun v hv w hw => ?_⟩
    obtain rfl := List.mem_singleton.mp hw
    obtain ⟨⟨order, given, same⟩, id⟩ := linked.issued v hv
    refine ⟨id, fun i j hi hj => ?_⟩
    obtain rfl := Signal.scheduled.inj (same.symm.trans hi)
    obtain rfl := Signal.scheduled.inj (number.symm.trans hj)
    exact given

/-- A poll does nothing to its host but drive it. -/
theorem pollWithin_drives {P : Host → Prop} (drive : ∀ k, P k → P k.drive.1) (fuel : Nat)
    (b : Bridge φ) (h : Host) (start : P h) : P (b.pollWithin fuel h).2.2 := by
  induction fuel generalizing b h with
  | zero =>
    unfold pollWithin
    split
    · exact start
    · split <;> exact start
  | succ fuel ih =>
    unfold pollWithin
    split
    · exact start
    · split
      · exact start
      · exact ih _ _ (drive h start)

theorem Linked.onward_poll (linked : b.Linked h) :
    (b.poll h).2.2.Reachable ∧ h.Onward (b.poll h).2.2 :=
  pollWithin_drives (P := fun k => k.Reachable ∧ h.Onward k)
    (fun k hk => ⟨hk.1.call (.request .drive), hk.2.trans (Host.onward_drive k)⟩) _ b h
    ⟨linked.reached, .refl h⟩

theorem Linked.polled (linked : b.Linked h) : (b.poll h).2.1.Linked (b.poll h).2.2 := by
  obtain ⟨reached, onward⟩ := linked.onward_poll
  have after := linked.onward reached onward
  rcases pollWithin_cases h.timers.size b h with ⟨-, same⟩ | taken
  · rw [show (b.poll h).2.1 = b from same]
    exact after
  · rw [show (b.poll h).2.1 = (b.takeReady (b.poll h).2.2).2 from (congrArg Prod.snd taken).symm]
    exact after.takeReady

theorem InUse.linked (used : b.InUse h) : b.Linked h := by
  induction used with
  | opened reached context => exact linked_opened reached context
  | called _ call ih => exact ih.onward (ih.reached.call call) (call.onward_serve _)
  | set _ delay callback ih => exact ih.setTimeout delay callback
  | taken _ ih => exact ih.takeReady
  | polled _ ih => exact ih.polled

/-! ### What a poll comes to -/

/-- If a timer is complete, a poll hands out what is complete at once. -/
theorem pollWithin_of_ready {w : WaitingTimer Signal φ} (waits : w ∈ b.timers.waiting)
    (ready : (h.completion? w.signal).isSome) (fuel : Nat) :
    b.pollWithin fuel h = ((b.takeReady h).1, (b.takeReady h).2, h) ∧ (b.takeReady h).1 ≠ [] := by
  have some : (b.takeReady h).1 ≠ [] := by
    intro nothing
    rw [TimerTable.missed_of_takeReady nothing waits] at ready
    cases ready
  refine ⟨?_, some⟩
  have waiting : b.timers.waiting.isEmpty = false := by
    rw [List.isEmpty_eq_false_iff]
    exact List.ne_nil_of_mem waits
  unfold pollWithin
  rw [waiting]
  cases taken : b.takeReady h with
  | mk ready c =>
    cases ready with
    | nil => exact absurd (by rw [taken]) some
    | cons r rest => cases fuel <;> rfl

theorem takeReady_of_missed (missed : ∀ w ∈ b.timers.waiting, h.completion? w.signal = none) :
    b.takeReady h = ([], b) := by
  have nothing : b.timers.ready h.completion? = [] := by
    refine List.filterMap_eq_nil_iff.mpr fun w hw => ?_
    rw [missed w hw]
    rfl
  have none : (b.takeReady h).1 = [] := by
    show (sortByKey _ (b.timers.ready h.completion?)).map _ = []
    rw [nothing]
    rfl
  exact Prod.ext none (takeReady_eq_self (Prod.ext none rfl))

/-- If all timers of a bridge are pending, a poll comes to a skip to the earliest of
their deadlines. -/
theorem pollWithin_skips (fuel : Nat) (owned : h.Owned) {v : WaitingTimer Signal φ}
    {p : PendingTimer} (hv : v ∈ b.timers.waiting) (signal : v.signal = .scheduled p.order)
    (pending : p ∈ h.timers.pending) (ahead : h.clock ≤ p.deadline)
    (own : ∀ w ∈ b.timers.waiting, ∃ q ∈ h.timers.pending,
      w.signal = .scheduled q.order ∧ p.deadline ≤ q.deadline)
    (enough : h.timers.size ≤ fuel) :
    ∃ k, (h.skipTo p.deadline).Rearranged k ∧ (b.takeReady k).1 ≠ []
      ∧ b.pollWithin fuel h = ((b.takeReady k).1, (b.takeReady k).2, k) := by
  induction fuel generalizing h with
  | zero =>
    have idle : h.timers.pending = [] := List.eq_nil_of_length_eq_zero (Nat.le_zero.mp enough)
    rw [idle] at pending
    cases pending
  | succ fuel ih =>
    have missed : ∀ w ∈ b.timers.waiting, h.completion? w.signal = none := by
      intro w hw
      obtain ⟨q, hq, same, -⟩ := own w hw
      rw [same]
      exact owned.unfired hq
    have waiting : b.timers.waiting.isEmpty = false := by
      rw [List.isEmpty_eq_false_iff]
      exact List.ne_nil_of_mem hv
    obtain ⟨-, fewer⟩ := Host.drive_of_pending (List.ne_nil_of_mem pending)
    obtain ⟨t, -, le, driven⟩ := Host.drive_eq_skipTo pending ahead
    have enough' : (h.skipTo t).timers.size ≤ fuel := by
      rw [driven] at fewer
      exact Nat.le_of_lt_succ (Nat.lt_of_lt_of_le fewer enough)
    have goes : b.pollWithin (fuel + 1) h = b.pollWithin fuel (h.skipTo t) := by
      rw [pollWithin, waiting, takeReady_of_missed missed, driven]
      rfl
    rw [goes]
    rcases owned.after_skipTo pending t with ⟨due, seq, fired⟩ | ⟨late, still⟩
    · obtain rfl := Instant.eq_of_le le due
      obtain ⟨polls, some⟩ := pollWithin_of_ready hv (by rw [signal, fired]; rfl) fuel
      exact ⟨_, .refl _, some, polls⟩
    · -- the jump was to a deadline of others, and fired none of the bridge's timers
      have own' : ∀ w ∈ b.timers.waiting, ∃ q ∈ (h.skipTo t).timers.pending,
          w.signal = .scheduled q.order ∧ p.deadline ≤ q.deadline := by
        intro w hw
        obtain ⟨q, hq, same, later⟩ := own w hw
        rcases owned.after_skipTo hq t with ⟨due, -⟩ | ⟨-, stays⟩
        · exact absurd (Nat.lt_of_lt_of_le late later) (Nat.not_lt_of_le due)
        · exact ⟨q, stays, same, later⟩
      obtain ⟨k, same, some, polls⟩ :=
        ih ((Host.onward_skipTo h t).owned owned) still le own' enough'
      exact ⟨k, (Host.skipTo_skipTo h le).trans same, some, polls⟩

/-! ### What is handed out -/

/-- Timers handed out by a bridge: those that are complete, in the order in which they
completed. -/
def Delivers (b : Bridge φ) (h : Host) (ready : List (ReadyTimer φ)) : Prop :=
  ∃ stamped : List (Nat × ReadyTimer φ), stamped.map Prod.snd = ready
    ∧ (stamped.Pairwise fun r s => r.1 < s.1)
    ∧ ∀ r, r ∈ stamped ↔ ∃ w ∈ b.timers.waiting, ∃ c, h.completion? w.signal = some c
      ∧ r = (c.seq, ⟨w.id, c.result, w.callback⟩)

theorem Linked.seq_ne (linked : b.Linked h) :
    b.timers.waiting.Pairwise fun v w => ∀ c d, h.completion? v.signal = some c →
      h.completion? w.signal = some d → c.seq ≠ d.seq := by
  obtain ⟨book, kept⟩ := linked.reached.kept
  refine linked.ordered.imp_of_mem fun {v w} hv hw before c d hc hd => ?_
  obtain ⟨⟨i, -, vi⟩, -⟩ := linked.issued v hv
  obtain ⟨⟨j, -, wj⟩, -⟩ := linked.issued w hw
  rw [vi] at hc
  rw [wj] at hd
  exact kept.book.seq_ne (Nat.ne_of_lt (before.2 i j vi wj)) hc hd

theorem delivers_takeReady (linked : b.Linked h) : b.Delivers h (b.takeReady h).1 := by
  let ready : List (Nat × ReadyTimer φ) := b.timers.ready h.completion?
  have apart : ready.Pairwise fun r s => r.1 ≠ s.1 := by
    refine linked.seq_ne.filterMap _ fun v w vw r hr s hs => ?_
    obtain ⟨c, hc, rfl⟩ := Option.map_eq_some_iff.mp hr
    obtain ⟨d, hd, rfl⟩ := Option.map_eq_some_iff.mp hs
    exact vw c d hc hd
  have different : (sortByKey TimerTable.readyKey ready).Pairwise fun r s => r.1 ≠ s.1 :=
    ((sortByKey_perm _ ready).pairwise_iff fun {r s} (ne : r.1 ≠ s.1) => ne.symm).mpr apart
  refine ⟨sortByKey TimerTable.readyKey ready, rfl, ?_, fun r => TimerTable.mem_sorted_ready⟩
  refine ((pairwise_sortByKey TimerTable.readyKey ready).and different).imp fun ⟨le, ne⟩ => ?_
  rcases keyLe_iff.mp le with lt | ⟨same, -⟩
  · exact lt
  · exact absurd same ne

/-- Whether a timer fires in a skip that does not go beyond its deadline. -/
theorem fired_skipTo {book : TimerBook} (kept : book.Kept h) {p : PendingTimer}
    (pending : p ∈ h.timers.pending) (later : D ≤ p.deadline) :
    (h.deadline? (.scheduled p.order) = some D ∧ book.key p.order = (D.nanos, p.order)
        ∧ ∃ seq, (h.skipTo D).completion? (.scheduled p.order) = some ⟨seq, .ok ()⟩)
      ∨ (h.deadline? (.scheduled p.order) ≠ some D
        ∧ (h.skipTo D).completion? (.scheduled p.order) = none) := by
  rw [kept.owned.deadline?_eq pending]
  rcases kept.owned.after_skipTo pending D with ⟨due, complete⟩ | ⟨late, stays⟩
  · obtain rfl := Instant.eq_of_le later due
    exact Or.inl ⟨rfl, TimerBook.key_eq (kept.planned p pending), complete⟩
  · have after : (h.skipTo D).Owned := (Host.onward_skipTo h D).owned kept.owned
    refine Or.inr ⟨fun same => ?_, after.unfired stays⟩
    rw [Option.some.inj same] at late
    exact Nat.lt_irrefl _ late

/-- After a skip to a deadline that no timer of a bridge precedes, the timers that are
complete are in the order in which they completed. -/
theorem sorted_ready_skipTo (linked : b.Linked h)
    (own : ∀ w ∈ b.timers.waiting, ∃ p ∈ h.timers.pending,
      w.signal = .scheduled p.order ∧ D ≤ p.deadline) (ahead : h.clock ≤ D) :
    (b.timers.ready (h.skipTo D).completion?).Pairwise fun r s =>
      keyLe (TimerTable.readyKey r) (TimerTable.readyKey s) := by
  obtain ⟨book, kept⟩ := linked.reached.kept
  have after : book.Kept (h.skipTo D) := (TimerBook.kept_fireDue (kept.book.withClock ahead)).1
  have complete : ∀ w ∈ b.timers.waiting, ∀ c, (h.skipTo D).completion? w.signal = some c →
      ∃ order, w.signal = .scheduled order ∧ book.key order = (D.nanos, order)
        ∧ c = ⟨c.seq, .ok ()⟩ := by
    intro w hw c hc
    obtain ⟨p, hp, same, later⟩ := own w hw
    rw [same] at hc
    rcases fired_skipTo kept.book hp later with ⟨-, key, seq, fired⟩ | ⟨-, missing⟩
    · obtain rfl := Option.some.inj (fired.symm.trans hc)
      exact ⟨p.order, same, key, rfl⟩
    · cases missing.symm.trans hc
  have pairs : b.timers.waiting.Pairwise fun v w => ∀ c d,
      (h.skipTo D).completion? v.signal = some c → (h.skipTo D).completion? w.signal = some d →
      keyLe (c.seq, v.id.number) (d.seq, w.id.number) := by
    refine linked.ordered.imp_of_mem fun {v w} hv hw before c d hc hd => ?_
    obtain ⟨i, vi, keyi, good⟩ := complete v hv c hc
    obtain ⟨j, wj, keyj, good'⟩ := complete w hw d hd
    rw [vi, good] at hc
    rw [wj, good'] at hd
    -- with one deadline, the timer that was set first fires first
    have le : c.seq ≤ d.seq := by
      rw [after.seq_le_iff hc hd, keyi, keyj]
      exact keyLe_iff.mpr (Or.inr ⟨rfl, Nat.le_of_lt (before.2 i j vi wj)⟩)
    rcases Nat.lt_or_eq_of_le le with lt | same
    · exact keyLe_iff.mpr (Or.inl lt)
    · exact keyLe_iff.mpr (Or.inr ⟨same, Nat.le_of_lt before.1⟩)
  refine pairs.filterMap _ fun v w le r hr s hs => ?_
  obtain ⟨c, hc, rfl⟩ := Option.map_eq_some_iff.mp hr
  obtain ⟨d, hd, rfl⟩ := Option.map_eq_some_iff.mp hs
  exact le c d hc hd

/-- After a skip to the earliest deadline of a bridge's timers, those with this deadline
are complete, in the order in which they were set. -/
theorem takeReady_skipTo (linked : b.Linked h)
    (own : ∀ w ∈ b.timers.waiting, ∃ p ∈ h.timers.pending,
      w.signal = .scheduled p.order ∧ D ≤ p.deadline) (ahead : h.clock ≤ D) :
    (b.takeReady (h.skipTo D)).1
      = (b.timers.waiting.filter fun w => h.deadline? w.signal = some D).map
        fun w => ⟨w.id, .ok (), w.callback⟩ := by
  obtain ⟨book, kept⟩ := linked.reached.kept
  show (sortByKey _ (b.timers.ready _)).map _ = _
  rw [sortByKey_of_sorted (sorted_ready_skipTo linked own ahead), TimerTable.ready,
    List.map_filterMap, ← List.filterMap_eq_map, List.filterMap_filter]
  refine List.filterMap_congr fun w hw => ?_
  obtain ⟨p, hp, same, later⟩ := own w hw
  rw [same]
  rcases fired_skipTo kept.book hp later with ⟨due, -, seq, complete⟩ | ⟨other, missing⟩
  · simp [due, complete]
  · simp [other, missing]

/-! ### The next timers -/

theorem Linked.pending_of_missed (linked : b.Linked h) {w : WaitingTimer Signal φ}
    (hw : w ∈ b.timers.waiting) (missed : h.completion? w.signal = none) :
    ∃ p ∈ h.timers.pending, w.signal = .scheduled p.order := by
  obtain ⟨book, kept⟩ := linked.reached.kept
  obtain ⟨⟨order, given, signal⟩, -⟩ := linked.issued w hw
  rw [signal] at missed
  rcases kept.book.owned.scheduled given with ⟨⟨p, hp, rfl⟩, -⟩ | ⟨-, seq, fired⟩
  · exact ⟨p, hp, signal⟩
  · cases missed.symm.trans fired

/-- If none of a bridge's timers is complete, one of them has the earliest deadline. -/
theorem Linked.exists_earliest (linked : b.Linked h) (some : b.timers.waiting ≠ [])
    (missed : ∀ w ∈ b.timers.waiting, h.completion? w.signal = none) :
    ∃ v ∈ b.timers.waiting, ∃ p ∈ h.timers.pending, v.signal = .scheduled p.order
      ∧ ∀ w ∈ b.timers.waiting, ∃ q ∈ h.timers.pending,
        w.signal = .scheduled q.order ∧ p.deadline ≤ q.deadline := by
  let Waits (n : Nat) : Prop := ∃ v ∈ b.timers.waiting, ∃ p ∈ h.timers.pending,
    v.signal = .scheduled p.order ∧ p.deadline.nanos = n
  have waits : ∃ n, Waits n := by
    obtain ⟨v, hv⟩ := List.exists_mem_of_ne_nil _ some
    obtain ⟨p, hp, signal⟩ := linked.pending_of_missed hv (missed v hv)
    exact ⟨p.deadline.nanos, v, hv, p, hp, signal, rfl⟩
  classical
  obtain ⟨v, hv, p, hp, signal, least⟩ := Nat.find_spec waits
  refine ⟨v, hv, p, hp, signal, fun w hw => ?_⟩
  obtain ⟨q, hq, same⟩ := linked.pending_of_missed hw (missed w hw)
  refine ⟨q, hq, same, ?_⟩
  show p.deadline.nanos ≤ q.deadline.nanos
  rw [least]
  exact Nat.find_min' waits ⟨w, hw, q, hq, same, rfl⟩

theorem Linked.complete_or_pending (linked : b.Linked h) {order : Nat}
    (given : order < h.timers.nextOrder) :
    (h.completion? (.scheduled order)).isSome ∨ ∃ p ∈ h.timers.pending, p.order = order := by
  obtain ⟨book, kept⟩ := linked.reached.kept
  rcases kept.book.owned.scheduled given with ⟨pending, -⟩ | ⟨-, seq, fired⟩
  · exact Or.inr pending
  · exact Or.inl (by rw [fired]; rfl)

/-- A poll of timers none of which is complete comes to a skip to their earliest
deadline. -/
theorem Linked.poll_skips (linked : b.Linked h) (waits : b.timers.waiting ≠ [])
    (missed : ∀ w ∈ b.timers.waiting, h.completion? w.signal = none) :
    ∃ v ∈ b.timers.waiting, ∃ p ∈ h.timers.pending, v.signal = .scheduled p.order
      ∧ h.clock ≤ p.deadline
      ∧ (∀ w ∈ b.timers.waiting, ∃ q ∈ h.timers.pending,
        w.signal = .scheduled q.order ∧ p.deadline ≤ q.deadline)
      ∧ (h.skipTo p.deadline).Rearranged (b.poll h).2.2
      ∧ (b.poll h).1 = (b.takeReady (h.skipTo p.deadline)).1 := by
  obtain ⟨book, kept⟩ := linked.reached.kept
  obtain ⟨v, hv, p, hp, signal, own⟩ := linked.exists_earliest waits missed
  have ahead : h.clock ≤ p.deadline := kept.timely p hp
  obtain ⟨k, same, -, polls⟩ :=
    pollWithin_skips h.timers.size kept.book.owned hv signal hp ahead own (Nat.le_refl _)
  refine ⟨v, hv, p, hp, signal, ahead, own, ?_, ?_⟩
  · rw [Bridge.poll, polls]
    exact same
  · rw [Bridge.poll, polls, Bridge.takeReady, Bridge.takeReady, funext same.completion?]

/-- **A poll hands out exactly the next timers.** Whatever a bridge and the others have
asked of their host: as long as a timer of the bridge waits, a poll comes back, and not
empty. If some of the bridge's timers are complete it hands out these, in the order in
which they completed, and leaves the host as it is. Otherwise it ends at the earliest of
their deadlines and hands out those with this deadline, by their ids; every timer of the
host that is due by then is complete, and the later ones are pending. -/
theorem poll_hands_out_next (used : b.InUse h) (waits : b.timers.waiting ≠ []) :
    let polled := b.poll h
    let after := polled.2.2
    polled.1 ≠ []
      ∧ (∃ n, Polls n b h polled.1 polled.2.1 after)
      ∧ ((∃ w ∈ b.timers.waiting, (h.completion? w.signal).isSome) →
        b.Delivers h polled.1 ∧ after = h)
      ∧ ((∀ w ∈ b.timers.waiting, h.completion? w.signal = none) →
        (∃ w ∈ b.timers.waiting, h.deadline? w.signal = some after.clock)
          ∧ (∀ w ∈ b.timers.waiting, ∃ d, h.deadline? w.signal = some d ∧ after.clock ≤ d)
          ∧ polled.1 = (b.timers.waiting.filter fun w => h.deadline? w.signal = some after.clock).map
            (fun w => ⟨w.id, .ok (), w.callback⟩)
          ∧ (polled.1.Pairwise fun r s => r.id.number < s.id.number)
          ∧ after.timers.pending.Perm (h.timers.left after.clock)
          ∧ ∀ order < h.timers.nextOrder, (after.completion? (.scheduled order)).isSome
            ∨ ∃ p ∈ after.timers.pending, p.order = order) := by
  intro polled after
  have linked := used.linked
  obtain ⟨book, kept⟩ := linked.reached.kept
  have answered : ∀ w ∈ b.timers.waiting, h.Answers w.signal := fun w hw =>
    (linked.issued w hw).1.answers kept.book.owned
  obtain ⟨n, -, polls⟩ := polls_poll answered
  refine ⟨fun empty => waits ?_, ⟨n, polls⟩, ?_, fun missed => ?_⟩
  · exact waiting_eq_nil_of_pollWithin _ b h (Nat.le_refl _) answered empty
  · rintro ⟨w, hw, complete⟩
    have ends : polled = ((b.takeReady h).1, (b.takeReady h).2, h) :=
      (pollWithin_of_ready hw complete h.timers.size).1
    refine ⟨?_, congrArg (fun p => p.2.2) ends⟩
    rw [ends]
    exact delivers_takeReady linked
  · obtain ⟨v, hv, p, hp, signal, ahead, own, same, ready⟩ := linked.poll_skips waits missed
    have handed : polled.1 = _ := ready.trans (takeReady_skipTo linked own ahead)
    obtain ⟨pending, perm, ends⟩ := same
    have clock : after.clock = p.deadline := congrArg Host.clock ends
    rw [clock]
    refine ⟨⟨v, hv, ?_⟩, fun w hw => ?_, handed, ?_, ?_, fun order given => ?_⟩
    · rw [signal]
      exact kept.book.owned.deadline?_eq hp
    · obtain ⟨q, hq, scheduled, later⟩ := own w hw
      rw [scheduled]
      exact ⟨q.deadline, kept.book.owned.deadline?_eq hq, later⟩
    · rw [handed, List.pairwise_map]
      exact (linked.ordered.filter _).imp And.left
    · rw [show after.timers.pending = pending from congrArg (fun k => k.timers.pending) ends]
      exact perm.trans (Host.pending_skipTo h p.deadline)
    · exact linked.polled.complete_or_pending
        (Nat.lt_of_lt_of_le given linked.onward_poll.2.orders)

/-- A bridge with timers at 7, 9 and 7, on a host where others have set timers at 3
and 8. -/
def shared : Bridge Char × Host :=
  let h := (Host.empty.setTimeout (.ofNanos 3)).1
  let (b, h, _) := (ofContext (.spawned 0)).setTimeout h (.ofNanos 7) 'a'
  let (b, h, _) := b.setTimeout h (.ofNanos 9) 'b'
  let (b, h, _) := b.setTimeout h (.ofNanos 7) 'c'
  (b, (h.setTimeout (.ofNanos 8)).1)

theorem inUse_shared : shared.1.InUse shared.2 :=
  have begun : Host.empty.Reachable := .new rfl rfl rfl
  have opened := (InUse.opened begun (.spawned 0)).called (.start (.timer (.ofNanos 3)))
  (((opened.set (.ofNanos 7) 'a').set (.ofNanos 9) 'b').set (.ofNanos 7) 'c').called
    (.start (.timer (.ofNanos 8)))

/-- The poll passes the deadline of another one and hands out two timers at 7. Once time
has passed to 10, it hands out all three at once. -/
theorem poll_hands_out_next_shared :
    let polled := shared.1.poll shared.2
    let later := shared.1.poll (shared.2.advance (.ofNanos 10))
    shared.1.InUse shared.2 ∧ shared.1.timers.waiting ≠ []
      ∧ polled.1 = [⟨⟨0⟩, .ok (), 'a'⟩, ⟨⟨2⟩, .ok (), 'c'⟩] ∧ polled.2.2.clock = .ofNanos 7
      ∧ (polled.2.2.timers.pending.map PendingTimer.order).Perm [2, 4]
      ∧ later.1.map ReadyTimer.entry = [(⟨0⟩, 'a'), (⟨2⟩, 'c'), (⟨1⟩, 'b')]
      ∧ later.2.2 = shared.2.advance (.ofNanos 10) := by
  intro polled later
  have waits : shared.1.timers.waiting ≠ [] := List.cons_ne_nil _ _
  obtain ⟨-, -, -, next⟩ := poll_hands_out_next inUse_shared waits
  obtain ⟨-, -, handed, -, pending, -⟩ := next (by decide)
  have clock : polled.2.2.clock = .ofNanos 7 := by decide +kernel
  obtain ⟨-, -, ready, -⟩ := poll_hands_out_next
    (inUse_shared.called (.request (.advance (.ofNanos 10)))) waits
  refine ⟨inUse_shared, waits, ?_, clock, ?_, by decide +kernel, (ready ?_).2⟩
  · exact handed.trans (by rw [clock]; rfl)
  · exact (pending.map _).trans (by rw [clock]; exact .of_eq rfl)
  · exact ⟨_, List.mem_cons_self, by decide +kernel⟩

end Bridge
end TaskHost
