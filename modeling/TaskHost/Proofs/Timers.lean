/-
# What a timer queue takes and keeps

Taking out what is due splits the pending timers in two: the timers whose
deadline has come are handed out, the others stay (`TimerQueue.mem_takeDue`).
Both parts are rearranged, but no timer is lost and none is doubled. The earliest
deadline is the deadline of a pending timer, so at this instant at least one timer
is due (`TimerQueue.size_takeDue_lt`).

What is taken is the sorted batch of what is due (`TimerQueue.due`), however the queue is
arranged. What is due by a later instant is what is due by the earlier one, and then what
is due from there on (`TimerQueue.due_append`).

Key definitions: `TimerQueue.due`, `TimerQueue.left`.
Key theorems: `TimerQueue.sweep_perm`, `TimerQueue.takeDue_perm`,
`TimerQueue.mem_takeDue`, `TimerQueue.size_takeDue_lt`, `TimerQueue.due_append`.
-/
import TaskHost.Host.TimerQueue

namespace TaskHost

/-! ### Sorting -/

theorem insertByKey_perm {α : Type} (key : α → Nat × Nat) (a : α) :
    ∀ l : List α, (insertByKey key a l).Perm (a :: l)
  | [] => .refl _
  | b :: l => by
    unfold insertByKey
    split
    · exact .refl _
    · exact ((insertByKey_perm key a l).cons b).trans (.swap a b l)

theorem sortByKey_perm {α : Type} (key : α → Nat × Nat) :
    ∀ l : List α, (sortByKey key l).Perm l
  | [] => .refl _
  | a :: l => (insertByKey_perm key a _).trans ((sortByKey_perm key l).cons a)

theorem keyLe_iff {a b : Nat × Nat} : keyLe a b ↔ a.1 < b.1 ∨ a.1 = b.1 ∧ a.2 ≤ b.2 := by
  simp only [keyLe, Bool.or_eq_true, Bool.and_eq_true, decide_eq_true_eq, beq_iff_eq]

theorem keyLe_trans {a b c : Nat × Nat} (ab : keyLe a b) (bc : keyLe b c) : keyLe a c := by
  rw [keyLe_iff] at ab bc ⊢
  omega

theorem keyLe_total {a b : Nat × Nat} (ab : ¬ keyLe a b) : keyLe b a := by
  rw [keyLe_iff] at ab ⊢
  omega

theorem pairwise_insertByKey {α : Type} (key : α → Nat × Nat) (a : α) {l : List α}
    (sorted : l.Pairwise fun b c => keyLe (key b) (key c)) :
    (insertByKey key a l).Pairwise fun b c => keyLe (key b) (key c) := by
  induction l with
  | nil => exact List.pairwise_singleton _ a
  | cons b rest ih =>
    obtain ⟨first, others⟩ := List.pairwise_cons.mp sorted
    unfold insertByKey
    split
    · next le =>
      refine List.pairwise_cons.mpr ⟨fun c hc => ?_, sorted⟩
      rcases List.mem_cons.mp hc with rfl | hc
      · exact le
      · exact keyLe_trans le (first c hc)
    · next gt =>
      refine List.pairwise_cons.mpr ⟨fun c hc => ?_, ih others⟩
      rcases List.mem_cons.mp ((insertByKey_perm key a rest).mem_iff.mp hc) with rfl | hc
      · exact keyLe_total gt
      · exact first c hc

theorem pairwise_sortByKey {α : Type} (key : α → Nat × Nat) :
    ∀ l : List α, (sortByKey key l).Pairwise fun b c => keyLe (key b) (key c)
  | [] => List.Pairwise.nil
  | a :: l => pairwise_insertByKey key a (pairwise_sortByKey key l)

theorem keyLe_antisymm {a b : Nat × Nat} (ab : keyLe a b) (ba : keyLe b a) : a = b := by
  rw [keyLe_iff] at ab ba
  exact Prod.ext (by omega) (by omega)

/-- A sorted list that is a rearrangement is what sorting gives, if keys tell the items
apart. -/
theorem sortByKey_eq_of_perm {α : Type} {key : α → Nat × Nat} {l m : List α}
    (apart : ∀ a b, key a = key b → a = b) (perm : l.Perm m)
    (sorted : m.Pairwise fun a b => keyLe (key a) (key b)) : sortByKey key l = m :=
  ((sortByKey_perm key l).trans perm).eq_of_pairwise
    (fun a b _ _ ab ba => apart a b (keyLe_antisymm ab ba)) (pairwise_sortByKey key l) sorted

theorem sortByKey_of_sorted {α : Type} {key : α → Nat × Nat} {l : List α}
    (sorted : l.Pairwise fun a b => keyLe (key a) (key b)) : sortByKey key l = l := by
  induction l with
  | nil => rfl
  | cons a rest ih =>
    obtain ⟨first, others⟩ := List.pairwise_cons.mp sorted
    rw [sortByKey, ih others]
    cases rest with
    | nil => rfl
    | cons b rest => rw [insertByKey, if_pos (first b List.mem_cons_self)]

theorem PendingTimer.eq_of_key {t u : PendingTimer} (same : t.key = u.key) : t = u := by
  obtain ⟨⟨nanos, _⟩, order⟩ := t
  obtain ⟨⟨nanos', _⟩, order'⟩ := u
  obtain ⟨rfl, rfl⟩ := Prod.mk.inj same
  rfl

theorem Instant.eq_of_le {s t : Instant} (le : s ≤ t) (ge : t ≤ s) : s = t := by
  obtain ⟨m, _⟩ := s
  obtain ⟨n, _⟩ := t
  obtain rfl : m = n := Nat.le_antisymm le ge
  rfl

namespace TimerQueue

/-! ### Sweeping -/

theorem lastToFront_perm {α : Type} (l : List α) : (lastToFront l).Perm l := by
  rcases List.eq_nil_or_concat l with rfl | ⟨l', a, rfl⟩
  · exact .refl _
  · have : lastToFront (l' ++ [a]) = a :: l' := by
      simp only [lastToFront, List.getLast?_concat, List.dropLast_concat]
    rw [List.concat_eq_append, this]
    exact (List.perm_append_comm : ([a] ++ l').Perm (l' ++ [a]))

/-- A sweep divides the list by `due`. -/
theorem sweep_perm (due : PendingTimer → Bool) (l : List PendingTimer) :
    (sweep due l).1.Perm (l.filter due) ∧ (sweep due l).2.Perm (l.filter fun t => !due t) := by
  fun_induction sweep due l with
  | case1 => exact ⟨.refl _, .refl _⟩
  | case2 t rest h taken kept hs ih =>
    rw [hs] at ih
    obtain ⟨taken_perm, kept_perm⟩ := ih
    have moved := lastToFront_perm rest
    simp only [List.filter_cons, h, if_true, Bool.not_true, Bool.false_eq_true, if_false]
    exact ⟨(taken_perm.trans (moved.filter _)).cons t, kept_perm.trans (moved.filter _)⟩
  | case3 t rest h taken kept hs ih =>
    rw [hs] at ih
    obtain ⟨taken_perm, kept_perm⟩ := ih
    simp only [List.filter_cons, h, if_false, Bool.false_eq_true, Bool.not_false, if_true]
    exact ⟨taken_perm, kept_perm.cons t⟩

/-- What is due at an instant, and what stays. -/
theorem takeDue_perm (q : TimerQueue) (now : Instant) :
    (q.takeDue now).1.Perm (q.pending.filter fun t => t.deadline ≤ now)
      ∧ (q.takeDue now).2.pending.Perm (q.pending.filter fun t => !decide (t.deadline ≤ now)) := by
  obtain ⟨taken, kept⟩ := sweep_perm (fun t => t.deadline ≤ now) q.pending
  exact ⟨(sortByKey_perm _ _).trans taken, kept⟩

/-- Every pending timer is taken or stays. -/
theorem mem_takeDue {q : TimerQueue} {t : PendingTimer} (ht : t ∈ q.pending) (now : Instant) :
    t ∈ (q.takeDue now).1 ∨ t ∈ (q.takeDue now).2.pending := by
  obtain ⟨taken, kept⟩ := takeDue_perm q now
  by_cases h : t.deadline ≤ now
  · exact Or.inl (taken.mem_iff.mpr (List.mem_filter.mpr ⟨ht, by simpa using h⟩))
  · exact Or.inr (kept.mem_iff.mpr (List.mem_filter.mpr ⟨ht, by simpa using h⟩))

theorem size_takeDue (q : TimerQueue) (now : Instant) :
    (q.takeDue now).1.length + (q.takeDue now).2.size = q.size := by
  obtain ⟨taken, kept⟩ := takeDue_perm q now
  have split := (List.filter_append_perm (fun t => decide (t.deadline ≤ now)) q.pending).length_eq
  rw [List.length_append] at split
  rw [size, size, taken.length_eq, kept.length_eq, split]

/-! ### The earliest deadline -/

theorem foldl_earliest_mem (l : List PendingTimer) (d : Instant) :
    l.foldl (fun d u => d.earliest u.deadline) d = d
      ∨ ∃ t ∈ l, t.deadline = l.foldl (fun d u => d.earliest u.deadline) d := by
  induction l generalizing d with
  | nil => exact Or.inl rfl
  | cons u rest ih =>
    simp only [List.foldl_cons]
    rcases ih (d.earliest u.deadline) with h | ⟨t, ht, h⟩
    · rw [h]
      unfold Instant.earliest
      split
      · exact Or.inl rfl
      · exact Or.inr ⟨u, List.mem_cons_self, rfl⟩
    · exact Or.inr ⟨t, List.mem_cons_of_mem _ ht, h⟩

theorem exists_of_nextDeadline? {q : TimerQueue} {d : Instant} (h : q.nextDeadline? = some d) :
    ∃ t ∈ q.pending, t.deadline = d := by
  unfold nextDeadline? at h
  cases hp : q.pending with
  | nil => rw [hp] at h; cases h
  | cons t rest =>
    rw [hp] at h
    obtain rfl := Option.some.inj h
    rcases foldl_earliest_mem rest t.deadline with e | ⟨u, hu, e⟩
    · exact ⟨t, List.mem_cons_self, e.symm⟩
    · exact ⟨u, List.mem_cons_of_mem _ hu, e⟩

theorem nextDeadline?_eq_none_iff {q : TimerQueue} : q.nextDeadline? = none ↔ q.pending = [] := by
  unfold nextDeadline?
  cases q.pending <;> simp

/-- From the earliest deadline on at least one timer is due. -/
theorem size_takeDue_lt {q : TimerQueue} {d now : Instant} (h : q.nextDeadline? = some d)
    (hd : d ≤ now) : (q.takeDue now).2.size < q.size := by
  obtain ⟨t, ht, rfl⟩ := exists_of_nextDeadline? h
  have taken : t ∈ (q.takeDue now).1 :=
    (takeDue_perm q now).1.mem_iff.mpr (List.mem_filter.mpr ⟨ht, by simpa using hd⟩)
  have := List.length_pos_of_mem taken
  have := size_takeDue q now
  omega

/-! ### Batches -/

variable {q r : TimerQueue} {now t u : Instant}

/-- The timers that are due at an instant, in firing order. -/
def due (q : TimerQueue) (now : Instant) : List PendingTimer :=
  sortByKey PendingTimer.key (q.pending.filter fun t => t.deadline ≤ now)

/-- The timers that are not due yet at an instant. -/
def left (q : TimerQueue) (now : Instant) : List PendingTimer :=
  q.pending.filter fun t => now < t.deadline

theorem mem_due {p : PendingTimer} : p ∈ q.due now ↔ p ∈ q.pending ∧ p.deadline ≤ now := by
  rw [due, (sortByKey_perm _ _).mem_iff, List.mem_filter, decide_eq_true_eq]

theorem mem_left {p : PendingTimer} : p ∈ q.left now ↔ p ∈ q.pending ∧ now < p.deadline := by
  rw [left, List.mem_filter, decide_eq_true_eq]

/-- However the queue is arranged, what is taken comes in firing order. -/
theorem fst_takeDue (q : TimerQueue) (now : Instant) : (q.takeDue now).1 = q.due now := by
  refine (sortByKey_eq_of_perm (fun _ _ => PendingTimer.eq_of_key) ?_
    (pairwise_sortByKey PendingTimer.key _)).symm
  exact (takeDue_perm q now).1.symm

theorem pending_takeDue (q : TimerQueue) (now : Instant) :
    (q.takeDue now).2.pending.Perm (q.left now) := by
  have later : (fun t : PendingTimer => !decide (t.deadline ≤ now))
      = fun t => decide (now < t.deadline) := by
    funext t
    rw [← decide_not]
    exact decide_eq_decide.mpr Nat.not_le
  have kept := (takeDue_perm q now).2
  rw [later] at kept
  exact kept

theorem due_congr (perm : q.pending.Perm r.pending) : q.due now = r.due now :=
  sortByKey_eq_of_perm (fun _ _ => PendingTimer.eq_of_key)
    ((perm.filter _).trans (sortByKey_perm _ _).symm) (pairwise_sortByKey PendingTimer.key _)

theorem left_congr (perm : q.pending.Perm r.pending) : (q.left now).Perm (r.left now) :=
  perm.filter _

/-- What is due by a later instant is due by the earlier one, or after that. -/
theorem due_append (le : t ≤ u) (perm : r.pending.Perm (q.left t)) :
    q.due t ++ r.due u = q.due u := by
  have left_mem : ∀ p, p ∈ r.due u ↔ p ∈ q.pending ∧ t < p.deadline ∧ p.deadline ≤ u := by
    intro p
    rw [mem_due, perm.mem_iff, mem_left, and_assoc]
  refine (sortByKey_eq_of_perm (fun _ _ => PendingTimer.eq_of_key) ?_ ?_).symm
  · -- the earlier batch is the first part of a division of what is due
    have split := List.filter_append_perm (fun p : PendingTimer => decide (p.deadline ≤ t))
      (q.pending.filter fun p => p.deadline ≤ u)
    refine split.symm.trans (List.Perm.append ?_ ?_)
    · rw [List.filter_filter]
      refine List.Perm.trans (.of_eq (List.filter_congr fun p _ => ?_)) (sortByKey_perm _ _).symm
      rw [Bool.eq_iff_iff, Bool.and_eq_true, decide_eq_true_eq, decide_eq_true_eq]
      exact ⟨And.left, fun early => ⟨early, Nat.le_trans early le⟩⟩
    · have late : (q.pending.filter fun p => decide (p.deadline ≤ u)).filter
          (fun p => !decide (p.deadline ≤ t))
          = (q.left t).filter fun p => p.deadline ≤ u := by
        rw [left, List.filter_filter, List.filter_filter]
        refine List.filter_congr fun p _ => ?_
        rw [Bool.and_comm, ← decide_not]
        exact congrArg (_ && ·) (decide_eq_decide.mpr Nat.not_le)
      rw [late]
      exact ((perm.symm.filter _).trans (sortByKey_perm _ _).symm)
  · refine List.pairwise_append.mpr ⟨pairwise_sortByKey PendingTimer.key _,
      pairwise_sortByKey PendingTimer.key _, fun p hp s hs => ?_⟩
    have early : p.deadline ≤ t := (mem_due.mp hp).2
    have late : t < s.deadline := ((left_mem s).mp hs).2.1
    exact keyLe_iff.mpr (Or.inl (Nat.lt_of_le_of_lt early late))

theorem foldl_earliest_le (l : List PendingTimer) (d : Instant) :
    l.foldl (fun d u => d.earliest u.deadline) d ≤ d
      ∧ ∀ p ∈ l, l.foldl (fun d u => d.earliest u.deadline) d ≤ p.deadline := by
  induction l generalizing d with
  | nil => exact ⟨Nat.le_refl _, fun p hp => absurd hp List.not_mem_nil⟩
  | cons p rest ih =>
    obtain ⟨le, others⟩ := ih (d.earliest p.deadline)
    have least : d.earliest p.deadline ≤ d ∧ d.earliest p.deadline ≤ p.deadline := by
      unfold Instant.earliest
      split
      · next le => exact ⟨Nat.le_refl _, le⟩
      · next gt => exact ⟨Nat.le_of_not_le gt, Nat.le_refl _⟩
    refine ⟨Nat.le_trans le least.1, fun u hu => ?_⟩
    rcases List.mem_cons.mp hu with rfl | hu
    · exact Nat.le_trans le least.2
    · exact others u hu

theorem le_of_nextDeadline? {d : Instant} (next : q.nextDeadline? = some d) {p : PendingTimer}
    (pending : p ∈ q.pending) : d ≤ p.deadline := by
  unfold nextDeadline? at next
  cases hp : q.pending with
  | nil => rw [hp] at pending; cases pending
  | cons u rest =>
    rw [hp] at next pending
    obtain rfl := Option.some.inj next
    obtain ⟨first, others⟩ := foldl_earliest_le rest u.deadline
    rcases List.mem_cons.mp pending with rfl | later
    · exact first
    · exact others p later

theorem nextDeadline?_congr (perm : q.pending.Perm r.pending) :
    q.nextDeadline? = r.nextDeadline? := by
  cases hq : q.nextDeadline? with
  | none =>
    rw [nextDeadline?_eq_none_iff.mp hq] at perm
    exact (nextDeadline?_eq_none_iff.mpr perm.nil_eq.symm).symm
  | some d =>
    cases hr : r.nextDeadline? with
    | none =>
      rw [nextDeadline?_eq_none_iff.mp hr] at perm
      rw [nextDeadline?_eq_none_iff.mpr perm.eq_nil] at hq
      cases hq
    | some e =>
      obtain ⟨p, hp, rfl⟩ := exists_of_nextDeadline? hq
      obtain ⟨s, hs, rfl⟩ := exists_of_nextDeadline? hr
      exact congrArg some (Instant.eq_of_le (le_of_nextDeadline? hq (perm.mem_iff.mpr hs))
        (le_of_nextDeadline? hr (perm.mem_iff.mp hp)))

end TimerQueue
end TaskHost
