/-
# Timer queues answer as rosters do

A roster keeps its timers in the order in which they were scheduled. It takes what is due with a
stable sort by deadlines alone, so timers of one deadline come in the order of the roster, and it
never moves what stays. A timer queue fills the places of the timers that it takes with later
ones, and looks at those next (`TimerQueue.scanDue`); after a few calls its timers stand in some
other order. But it has the same timers as the roster, and every call gets the same reply
(`TimerQueue.Mirrors.serve`), so over all calls the replies are those of the roster
(`TimerQueue.answers_as_roster`).

Key definitions: `TimerQueue.scanDue`, `TimerQueue.Call`, `TimerQueue.Roster`,
`TimerQueue.serveAll`, `TimerQueue.scheduled`.
Key theorems: `TimerQueue.scanTakeDue_eq`, `TimerQueue.mergeSort_eq_sortByKey`,
`TimerQueue.serveAll_related`, `TimerQueue.taken_append_pending`, `TimerQueue.answers_as_roster`.
-/
import Mathlib.Data.List.MinMax
import TaskHost.Proofs.Timers

namespace TaskHost
namespace TimerQueue

variable {σ τ : Type} {q r : TimerQueue} {now : Instant}

/-! ### Taking in place -/

/-- The list without the item at a place, which the last item gets. -/
def swapRemove {α : Type} (l : List α) (i : Nat) : List α :=
  match l.getLast? with
  | none => []
  | some last => (l.set i last).dropLast

theorem length_swapRemove {α : Type} (l : List α) (i : Nat) :
    (swapRemove l i).length = l.length - 1 := by
  unfold swapRemove
  cases found : l.getLast? with
  | none => simp [List.getLast?_eq_none_iff.mp found]
  | some last => simp

/-- The last of the items behind the place comes to stand first of them. -/
theorem swapRemove_append {α : Type} (kept : List α) (a : α) (rest : List α) :
    swapRemove (kept ++ a :: rest) kept.length = kept ++ lastToFront rest := by
  rcases List.eq_nil_or_concat rest with rfl | ⟨front, b, rfl⟩
  · simp [swapRemove, lastToFront]
  · have last : (kept ++ a :: (front ++ [b])).getLast? = some b := by
      rw [List.append_cons, ← List.append_assoc, List.getLast?_concat]
    have moved : kept ++ b :: (front ++ [b]) = (kept ++ b :: front) ++ [b] := by simp
    simp only [swapRemove, List.concat_eq_append, last, List.set_append_right _ _ (Nat.le_refl _),
      Nat.sub_self, List.set_cons_zero, moved, List.dropLast_concat, lastToFront,
      List.getLast?_concat]

/-- Looks at the timers from a place on. One that is due is taken, the last timer gets its place,
and the place is looked at again. -/
def scanDue (due : PendingTimer → Bool) (i : Nat) (taken pending : List PendingTimer) :
    List PendingTimer × List PendingTimer :=
  if found : i < pending.length then
    if due pending[i] then scanDue due i (taken ++ [pending[i]]) (swapRemove pending i)
    else scanDue due (i + 1) taken pending
  else (taken, pending)
termination_by pending.length - i
decreasing_by
  · rw [length_swapRemove]
    omega
  · omega

/-- A scan from the end of what it has kept is a sweep of the others. -/
theorem scanDue_append (due : PendingTimer → Bool) (taken kept rest : List PendingTimer) :
    scanDue due kept.length taken (kept ++ rest)
      = (taken ++ (sweep due rest).1, kept ++ (sweep due rest).2) := by
  fun_induction sweep due rest generalizing taken kept with
  | case1 =>
    rw [scanDue, dif_neg (by simp)]
    simp
  | case2 t rest isDue more left swept ih =>
    have found : kept.length < (kept ++ t :: rest).length := by simp
    have here : (kept ++ t :: rest)[kept.length] = t := by simp
    rw [scanDue, dif_pos found]
    simp only [here, isDue, if_true, swapRemove_append, ih, swept]
    simp
  | case3 t rest notDue more left swept ih =>
    have found : kept.length < (kept ++ t :: rest).length := by simp
    have here : (kept ++ t :: rest)[kept.length] = t := by simp
    have next := ih taken (kept ++ [t])
    rw [List.length_append, List.length_singleton, List.append_assoc, List.singleton_append] at next
    rw [scanDue, dif_pos found]
    simp only [here, notDue, next, swept]
    simp

/-- Takes what a scan finds due, in firing order. -/
def scanTakeDue (q : TimerQueue) (now : Instant) : List PendingTimer × TimerQueue :=
  let (taken, pending) := scanDue (fun t => t.deadline ≤ now) 0 [] q.pending
  (sortByKey PendingTimer.key taken, { q with pending := pending })

/-- The scan misses no timer, and takes none twice. -/
theorem scanTakeDue_eq (q : TimerQueue) (now : Instant) : q.scanTakeDue now = q.takeDue now := by
  have scanned := scanDue_append (fun t => t.deadline ≤ now) [] [] q.pending
  rw [scanTakeDue, show scanDue _ 0 [] q.pending = _ from scanned]
  rfl

/-! ### Calls -/

/-- A call on the timers. -/
inductive Call where
  | schedule (deadline : Instant)
  | takeDue (now : Instant)
  | nextDeadline
  | size

/-- What a call gives back: the number of the timer that was scheduled, what was taken, the
earliest deadline, or the number of timers. -/
inductive Reply where
  | scheduled (order : Nat)
  | took (timers : List PendingTimer)
  | next (deadline : Option Instant)
  | size (n : Nat)

def serve (q : TimerQueue) : Call → Reply × TimerQueue
  | .schedule deadline => (.scheduled q.nextOrder, q.schedule deadline)
  | .takeDue now => (.took (q.takeDue now).1, (q.takeDue now).2)
  | .nextDeadline => (.next q.nextDeadline?, q)
  | .size => (.size q.size, q)

/-- Timers in the order in which they were scheduled, and the number of all that ever were. -/
structure Roster where
  waiting : List PendingTimer
  created : Nat

namespace Roster

/-- No timer was scheduled. -/
def empty : Roster := ⟨[], 0⟩

/-- Answers a call: what is due is taken with a stable sort by deadlines, and the others stay
where they are. -/
def serve (r : Roster) : Call → Reply × Roster
  | .schedule deadline =>
    (.scheduled r.created, ⟨r.waiting ++ [⟨deadline, r.created⟩], r.created + 1⟩)
  | .takeDue now =>
    (.took ((r.waiting.filter fun t => t.deadline ≤ now).mergeSort
        fun t u => t.deadline ≤ u.deadline),
      { r with waiting := r.waiting.filter fun t => now < t.deadline })
  | .nextDeadline => (.next ((r.waiting.argmin fun t => t.deadline.nanos).map (·.deadline)), r)
  | .size => (.size r.waiting.length, r)

end Roster

/-- The replies to calls, one after the other, and the timers after them. -/
def serveAll (serve : σ → Call → Reply × σ) : σ → List Call → List Reply × σ
  | s, [] => ([], s)
  | s, call :: rest =>
    let (reply, next) := serve s call
    let (replies, last) := serveAll serve next rest
    (reply :: replies, last)

/-- Timers that are related give the same replies, if each call replies the same and leaves
related timers. -/
theorem serveAll_related {serve : σ → Call → Reply × σ} {serve' : τ → Call → Reply × τ}
    {Related : σ → τ → Prop}
    (step : ∀ {s t}, Related s t → ∀ call, (serve s call).1 = (serve' t call).1
      ∧ Related (serve s call).2 (serve' t call).2)
    {s : σ} {t : τ} (related : Related s t) (calls : List Call) :
    (serveAll serve s calls).1 = (serveAll serve' t calls).1
      ∧ Related (serveAll serve s calls).2 (serveAll serve' t calls).2 := by
  induction calls generalizing s t with
  | nil => exact ⟨rfl, related⟩
  | cons call rest ih =>
    obtain ⟨same, next⟩ := step related call
    obtain ⟨replies, last⟩ := ih next
    exact ⟨by simp only [serveAll, same, replies], last⟩

/-! ### Timers of a roster -/

/-- Timers that stand in the order of their numbers keep it within one deadline when they are
sorted by deadlines. -/
theorem pairwise_key_mergeSort {l : List PendingTimer}
    (numbered : l.Pairwise fun t u => t.order < u.order) :
    (l.mergeSort fun t u => t.deadline ≤ u.deadline).Pairwise fun t u =>
      keyLe t.key u.key := by
  have trans (t u v : PendingTimer) (tu : decide (t.deadline ≤ u.deadline) = true)
      (uv : decide (u.deadline ≤ v.deadline) = true) : decide (t.deadline ≤ v.deadline) = true :=
    decide_eq_true (Nat.le_trans (of_decide_eq_true tu) (of_decide_eq_true uv))
  have total (t u : PendingTimer) :
      (decide (t.deadline ≤ u.deadline) || decide (u.deadline ≤ t.deadline)) = true := by
    rw [Bool.or_eq_true, decide_eq_true_eq, decide_eq_true_eq]
    exact Nat.le_total t.deadline.nanos u.deadline.nanos
  induction l with
  | nil => simp
  | cons t rest ih =>
    obtain ⟨first, others⟩ := List.pairwise_cons.mp numbered
    obtain ⟨before, after, whole, less, early⟩ := List.mergeSort_cons trans total t rest
    have sorted := ih others
    have deadlines := List.pairwise_mergeSort trans total (t :: rest)
    rw [less] at sorted
    rw [whole] at deadlines ⊢
    obtain ⟨front, back, across⟩ := List.pairwise_append.mp sorted
    refine List.pairwise_append.mpr ⟨front, List.pairwise_cons.mpr ⟨fun u hu => ?_, back⟩,
      fun u hu v hv => ?_⟩
    · -- `t` has the least number, so it may come before all that have its deadline
      have later : u ∈ rest := by
        have : u ∈ before ++ after := List.mem_append_right _ hu
        rw [← less] at this
        exact List.mem_mergeSort.mp this
      have le : t.deadline.nanos ≤ u.deadline.nanos := by
        have := (List.pairwise_cons.mp (List.pairwise_append.mp deadlines).2.1).1 u hu
        exact of_decide_eq_true this
      have number := first u later
      rw [keyLe_iff]
      simp only [PendingTimer.key]
      omega
    · rcases List.mem_cons.mp hv with rfl | hv
      · have lt : ¬ v.deadline ≤ u.deadline := by simpa using early u hu
        exact keyLe_iff.mpr (.inl (Nat.not_le.mp lt))
      · exact across u hu v hv

/-- Such timers are sorted by deadlines and numbers when they are sorted by deadlines alone. -/
theorem mergeSort_eq_sortByKey {l : List PendingTimer}
    (numbered : l.Pairwise fun t u => t.order < u.order) :
    l.mergeSort (fun t u => t.deadline ≤ u.deadline) = sortByKey PendingTimer.key l :=
  (sortByKey_eq_of_perm (fun _ _ => PendingTimer.eq_of_key) (List.mergeSort_perm l _).symm
    (pairwise_key_mergeSort numbered)).symm

theorem pairwise_due (apart : q.pending.Nodup) (now : Instant) : (q.due now).Pairwise fun t u =>
    t.deadline < u.deadline ∨ t.deadline = u.deadline ∧ t.order < u.order := by
  have sorted := pairwise_sortByKey PendingTimer.key (q.pending.filter fun t => t.deadline ≤ now)
  have distinct : (q.due now).Nodup := (sortByKey_perm _ _).nodup_iff.mpr (apart.filter _)
  refine (List.pairwise_and_iff.mpr ⟨sorted, distinct⟩).imp fun {t u} ⟨le, ne⟩ => ?_
  rcases keyLe_iff.mp le with lt | ⟨same, le⟩
  · exact .inl lt
  · have deadline : t.deadline = u.deadline :=
      Instant.eq_of_le (Nat.le_of_eq same) (Nat.le_of_eq same.symm)
    refine .inr ⟨deadline, Nat.lt_of_le_of_ne le fun order => ne ?_⟩
    exact PendingTimer.eq_of_key (Prod.ext same order)

/-- The earliest deadline is the least of the deadlines. -/
theorem nextDeadline?_eq_some_iff {d : Instant} : q.nextDeadline? = some d
    ↔ (∃ t ∈ q.pending, t.deadline = d) ∧ ∀ t ∈ q.pending, d ≤ t.deadline := by
  constructor
  · intro next
    exact ⟨exists_of_nextDeadline? next, fun t ht => le_of_nextDeadline? next ht⟩
  · rintro ⟨⟨t, ht, rfl⟩, least⟩
    cases next : q.nextDeadline? with
    | none =>
      rw [nextDeadline?_eq_none_iff.mp next] at ht
      cases ht
    | some e =>
      obtain ⟨u, hu, rfl⟩ := exists_of_nextDeadline? next
      exact congrArg some (Instant.eq_of_le (le_of_nextDeadline? next ht) (least u hu))

/-- A queue and a roster have the same timers, and number the next one alike. -/
structure Mirrors (q : TimerQueue) (r : Roster) : Prop where
  pending : q.pending.Perm r.waiting
  next : q.nextOrder = r.created
  numbered : r.waiting.Pairwise fun t u => t.order < u.order
  earlier : ∀ t ∈ r.waiting, t.order < r.created

namespace Mirrors

variable {r : Roster}

theorem empty : Mirrors .empty .empty := ⟨.refl _, rfl, .nil, by simp [Roster.empty]⟩

theorem schedule (mirrors : Mirrors q r) (deadline : Instant) :
    Mirrors (q.schedule deadline) ⟨r.waiting ++ [⟨deadline, r.created⟩], r.created + 1⟩ where
  pending := by
    rw [TimerQueue.schedule, mirrors.next]
    exact mirrors.pending.append_right _
  next := congrArg (· + 1) mirrors.next
  numbered := by
    refine List.pairwise_append.mpr ⟨mirrors.numbered, List.pairwise_singleton _ _,
      fun t ht u hu => ?_⟩
    obtain rfl := List.mem_singleton.mp hu
    exact mirrors.earlier t ht
  earlier t ht := by
    rcases List.mem_append.mp ht with ht | ht
    · exact Nat.lt_succ_of_lt (mirrors.earlier t ht)
    · obtain rfl := List.mem_singleton.mp ht
      exact Nat.lt_succ_self _

theorem fst_takeDue (mirrors : Mirrors q r) (now : Instant) :
    (q.takeDue now).1 = (r.waiting.filter fun t => t.deadline ≤ now).mergeSort
      fun t u => t.deadline ≤ u.deadline := by
  rw [mergeSort_eq_sortByKey (mirrors.numbered.filter _), TimerQueue.fst_takeDue]
  exact due_congr (r := ⟨r.waiting, 0⟩) mirrors.pending

theorem snd_takeDue (mirrors : Mirrors q r) (now : Instant) : Mirrors (q.takeDue now).2
    { r with waiting := r.waiting.filter fun t => now < t.deadline } where
  pending := (pending_takeDue q now).trans (mirrors.pending.filter _)
  next := mirrors.next
  numbered := mirrors.numbered.filter _
  earlier t ht := mirrors.earlier t (List.mem_of_mem_filter ht)

theorem nextDeadline? (mirrors : Mirrors q r) :
    q.nextDeadline? = (r.waiting.argmin fun t => t.deadline.nanos).map (·.deadline) := by
  cases first : r.waiting.argmin fun t => t.deadline.nanos with
  | none =>
    have none : q.pending = [] := by
      have perm := mirrors.pending
      rw [List.argmin_eq_none.mp first] at perm
      exact perm.eq_nil
    exact nextDeadline?_eq_none_iff.mpr none
  | some t =>
    have there : t ∈ r.waiting := List.argmin_mem first
    exact nextDeadline?_eq_some_iff.mpr ⟨⟨t, mirrors.pending.mem_iff.mpr there, rfl⟩,
      fun u hu => List.le_of_mem_argmin (mirrors.pending.mem_iff.mp hu) first⟩

theorem nodup (mirrors : Mirrors q r) : q.pending.Nodup := by
  refine mirrors.pending.nodup_iff.mpr (mirrors.numbered.imp fun {t u} lt same => ?_)
  exact absurd (congrArg PendingTimer.order same) (Nat.ne_of_lt lt)

/-- A queue and a roster reply alike. -/
theorem serve (mirrors : Mirrors q r) (call : Call) : (q.serve call).1 = (r.serve call).1
    ∧ Mirrors (q.serve call).2 (r.serve call).2 := by
  cases call with
  | schedule deadline => exact ⟨congrArg Reply.scheduled mirrors.next, mirrors.schedule deadline⟩
  | takeDue now => exact ⟨congrArg Reply.took (mirrors.fst_takeDue now), mirrors.snd_takeDue now⟩
  | nextDeadline => exact ⟨congrArg Reply.next mirrors.nextDeadline?, mirrors⟩
  | size => exact ⟨congrArg Reply.size mirrors.pending.length_eq, mirrors⟩

end Mirrors

/-- Two queues have the same timers, in whatever order, and number the next one alike. -/
structure SameTimers (q r : TimerQueue) : Prop where
  pending : q.pending.Perm r.pending
  next : q.nextOrder = r.nextOrder

/-- The order of the timers in a queue shows in no reply. -/
theorem SameTimers.serve (same : SameTimers q r) (call : Call) :
    (q.serve call).1 = (r.serve call).1 ∧ SameTimers (q.serve call).2 (r.serve call).2 := by
  obtain ⟨pending, next⟩ := same
  cases call with
  | schedule deadline =>
    refine ⟨congrArg Reply.scheduled next, ?_, congrArg (· + 1) next⟩
    rw [TimerQueue.serve, TimerQueue.serve, TimerQueue.schedule, TimerQueue.schedule, next]
    exact pending.append_right _
  | takeDue now =>
    refine ⟨congrArg Reply.took ?_, ?_, next⟩
    · rw [fst_takeDue, fst_takeDue, due_congr pending]
    · exact (pending_takeDue q now).trans ((left_congr pending).trans (pending_takeDue r now).symm)
  | nextDeadline => exact ⟨congrArg Reply.next (nextDeadline?_congr pending), pending, next⟩
  | size => exact ⟨congrArg Reply.size pending.length_eq, pending, next⟩

/-! ### Over all calls -/

/-- The deadline of the timer that a call schedules. -/
def Call.deadline? : Call → Option Instant
  | .schedule deadline => some deadline
  | _ => none

/-- The timers that a reply hands out. -/
def Reply.taken : Reply → List PendingTimer
  | .took timers => timers
  | _ => []

/-- The timers that calls schedule, numbered from a number on. -/
def scheduled (n : Nat) (calls : List Call) : List PendingTimer :=
  ((calls.filterMap Call.deadline?).zipIdx n).map fun p => ⟨p.1, p.2⟩

theorem taken_append_left (q : TimerQueue) (now : Instant) :
    ((q.takeDue now).1 ++ (q.takeDue now).2.pending).Perm q.pending := by
  obtain ⟨taken, kept⟩ := takeDue_perm q now
  exact (taken.append kept).trans (List.filter_append_perm _ _)

/-- Every timer that was pending or is scheduled is taken once or pending in the end. -/
theorem taken_append_pending (q : TimerQueue) (calls : List Call) :
    ((serveAll serve q calls).1.flatMap Reply.taken ++ (serveAll serve q calls).2.pending).Perm
      (q.pending ++ scheduled q.nextOrder calls) := by
  induction calls generalizing q with
  | nil => simp [serveAll, scheduled]
  | cons call rest ih =>
    have next := ih (q.serve call).2
    cases call with
    | schedule deadline =>
      refine next.trans (.of_eq ?_)
      simp [serve, TimerQueue.schedule, scheduled, Call.deadline?]
    | takeDue now =>
      let taken := (q.takeDue now).1
      let left := (q.takeDue now).2
      let more := (serveAll serve left rest).1.flatMap Reply.taken
      let last := (serveAll serve left rest).2.pending
      calc ((taken ++ more) ++ last).Perm (taken ++ (more ++ last)) := .of_eq (List.append_assoc ..)
        List.Perm _ (taken ++ (left.pending ++ scheduled q.nextOrder rest)) :=
          next.append_left taken
        List.Perm _ ((taken ++ left.pending) ++ scheduled q.nextOrder rest) :=
          .of_eq (List.append_assoc ..).symm
        List.Perm _ (q.pending ++ scheduled q.nextOrder rest) :=
          (taken_append_left q now).append_right _
    | nextDeadline => exact next
    | size => exact next

/-- **A timer queue answers as a roster does.** Over all calls, with any times in any order, the
replies are those of a roster, which keeps its timers in the order in which they were scheduled.
So in every state that calls lead to, taking brings the timers that are due by then, each once and
in the order of deadlines and then of scheduling, and leaves the others; the earliest deadline is
the least of all; and every timer that was scheduled has been taken once or is pending. The scan
that fills a place with the last timer takes the same and leaves the same, and in what order the
timers stand shows in no reply. -/
theorem answers_as_roster (calls : List Call) :
    (serveAll serve empty calls).1 = (serveAll Roster.serve .empty calls).1
    ∧ (let q := (serveAll serve empty calls).2
      (∀ now, (q.takeDue now).1.Pairwise (fun t u =>
          t.deadline < u.deadline ∨ t.deadline = u.deadline ∧ t.order < u.order)
        ∧ (∀ t, t ∈ (q.takeDue now).1 ↔ t ∈ q.pending ∧ t.deadline ≤ now)
        ∧ (q.takeDue now).2.pending.Perm (q.pending.filter fun t => now < t.deadline))
      ∧ (∀ d, q.nextDeadline? = some d
        ↔ (∃ t ∈ q.pending, t.deadline = d) ∧ ∀ t ∈ q.pending, d ≤ t.deadline)
      ∧ ((serveAll serve empty calls).1.flatMap Reply.taken ++ q.pending).Perm (scheduled 0 calls))
    ∧ (∀ (q : TimerQueue) now, q.scanTakeDue now = q.takeDue now)
    ∧ ∀ q r : TimerQueue, q.pending.Perm r.pending → q.nextOrder = r.nextOrder → ∀ more,
      (serveAll serve q more).1 = (serveAll serve r more).1 := by
  obtain ⟨replies, mirrors⟩ := serveAll_related Mirrors.serve Mirrors.empty calls
  refine ⟨replies, ⟨fun now => ⟨?_, fun t => ?_, pending_takeDue _ now⟩,
    fun d => nextDeadline?_eq_some_iff, taken_append_pending empty calls⟩, scanTakeDue_eq,
    fun q r perm next more => ?_⟩
  · rw [fst_takeDue]
    exact pairwise_due mirrors.nodup now
  · rw [fst_takeDue, mem_due]
  · exact (serveAll_related SameTimers.serve (SameTimers.mk perm next) more).1

/-- Two timers of one deadline and one of an earlier, in two orders. -/
theorem answers_as_roster_scrambled :
    let q : TimerQueue := ⟨[⟨.ofNanos 5, 0⟩, ⟨.ofNanos 3, 1⟩, ⟨.ofNanos 5, 2⟩], 3⟩
    let r : TimerQueue := ⟨[⟨.ofNanos 5, 2⟩, ⟨.ofNanos 5, 0⟩, ⟨.ofNanos 3, 1⟩], 3⟩
    let calls : List Call := [.takeDue (.ofNanos 4), .schedule .start, .takeDue (.ofNanos 9)]
    q.pending.Perm r.pending ∧ q.nextOrder = r.nextOrder
    ∧ (serveAll serve q calls).1 = (serveAll serve r calls).1 := by
  intro q r calls
  have perm : q.pending.Perm r.pending := by decide
  exact ⟨perm, rfl, (answers_as_roster []).2.2.2 q r perm rfl calls⟩

end TimerQueue
end TaskHost
