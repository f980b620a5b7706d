/-
# Polling a bridge

A poll hands timers out and keeps the others: together they are the timers that
were waiting (`Bridge.pollWithin_perm`). A timer that is handed out has fired,
unless the host cancelled it (`Bridge.result_of_mem_pollWithin`). Every drive
fires a timer as long as one is pending, so a poll comes back empty only if no
timer is waiting (`Bridge.waiting_eq_nil_of_pollWithin`).

Key definitions: `WaitingTimer.entry`, `ReadyTimer.entry`.
Key theorems: `Bridge.pollWithin_perm`, `Bridge.result_of_mem_pollWithin`,
`Bridge.waiting_eq_nil_of_pollWithin`.
-/
import TaskHost.Proofs.Later

namespace TaskHost

/-- A timer by its id, with what is to be called back. -/
def WaitingTimer.entry {σ φ : Type} (w : WaitingTimer σ φ) : TimerId × φ := (w.id, w.callback)

/-- A timer by its id, with what is to be called back. -/
def ReadyTimer.entry {φ : Type} (r : ReadyTimer φ) : TimerId × φ := (r.id, r.callback)

namespace TimerTable

variable {σ φ : Type}

/-- What is handed out and what stays are what was waiting, also when both are looked at in
the same way. -/
theorem takeReady_perm_map {α : Type} (t : TimerTable σ φ) (outcome : σ → Option (Completion Unit))
    (f : ReadyTimer φ → α) (g : WaitingTimer σ φ → α)
    (agree : ∀ w c, outcome w.signal = some c → f ⟨w.id, c.result, w.callback⟩ = g w) :
    ((t.takeReady outcome).1.map f ++ (t.takeReady outcome).2.waiting.map g).Perm
      (t.waiting.map g) := by
  have sorted : ((t.takeReady outcome).1.map f).Perm ((t.ready outcome).map fun r => f r.2) := by
    simp only [takeReady, List.map_map]
    exact (sortByKey_perm readyKey (t.ready outcome)).map _
  refine (sorted.append_right _).trans ?_
  simp only [ready, takeReady]
  induction t.waiting with
  | nil => exact .refl _
  | cons w rest ih =>
    cases ho : outcome w.signal with
    | none =>
      simp only [List.filterMap_cons, ho, Option.map_none, List.filter_cons, Option.isNone_none,
        if_true, List.map_cons]
      exact List.perm_middle.trans (ih.cons _)
    | some c =>
      simp only [List.filterMap_cons, ho, Option.map_some, List.filter_cons, Option.isNone_some,
        Bool.false_eq_true, if_false, List.map_cons, List.cons_append, agree w c ho]
      exact ih.cons _

theorem takeReady_perm (t : TimerTable σ φ) (outcome : σ → Option (Completion Unit)) :
    ((t.takeReady outcome).1.map ReadyTimer.entry
        ++ (t.takeReady outcome).2.waiting.map WaitingTimer.entry).Perm
      (t.waiting.map WaitingTimer.entry) :=
  takeReady_perm_map t outcome ReadyTimer.entry WaitingTimer.entry fun _ _ _ => rfl

theorem mem_sorted_ready {t : TimerTable σ φ} {outcome : σ → Option (Completion Unit)}
    {r : Nat × ReadyTimer φ} : r ∈ sortByKey readyKey (t.ready outcome)
      ↔ ∃ w ∈ t.waiting, ∃ c, outcome w.signal = some c
        ∧ r = (c.seq, ⟨w.id, c.result, w.callback⟩) := by
  rw [(sortByKey_perm readyKey (t.ready outcome)).mem_iff]
  constructor
  · intro hr
    obtain ⟨w, hw, e⟩ := List.mem_filterMap.mp hr
    obtain ⟨c, hc, rfl⟩ := Option.map_eq_some_iff.mp e
    exact ⟨w, hw, c, hc, rfl⟩
  · rintro ⟨w, hw, c, hc, rfl⟩
    exact List.mem_filterMap.mpr ⟨w, hw, Option.map_eq_some_iff.mpr ⟨c, hc, rfl⟩⟩

theorem mem_takeReady {t : TimerTable σ φ} {outcome : σ → Option (Completion Unit)}
    {r : ReadyTimer φ} (hr : r ∈ (t.takeReady outcome).1) :
    ∃ w ∈ t.waiting, ∃ c, outcome w.signal = some c ∧ r = ⟨w.id, c.result, w.callback⟩ := by
  obtain ⟨p, hp, rfl⟩ := List.mem_map.mp hr
  obtain ⟨w, hw, c, hc, rfl⟩ := mem_sorted_ready.mp hp
  exact ⟨w, hw, c, hc, rfl⟩

theorem missed_of_takeReady {t : TimerTable σ φ} {outcome : σ → Option (Completion Unit)}
    (nothing : (t.takeReady outcome).1 = []) {w : WaitingTimer σ φ} (hw : w ∈ t.waiting) :
    outcome w.signal = none := by
  have unready : sortByKey readyKey (t.ready outcome) = [] := List.map_eq_nil_iff.mp nothing
  cases hc : outcome w.signal with
  | none => rfl
  | some c =>
    have ready := mem_sorted_ready.mpr ⟨w, hw, c, hc, rfl⟩
    rw [unready] at ready
    cases ready

end TimerTable

theorem Host.result_of_completion? {h : Host} {s : Signal} {c : Completion Unit}
    (hc : h.completion? s = some c) (hs : s ≠ .cancelled) : c.result = .ok () := by
  cases s with
  | cancelled => exact absurd rfl hs
  | scheduled order =>
    obtain ⟨seq, -, rfl⟩ := Option.map_eq_some_iff.mp hc
    rfl

namespace Bridge

variable {φ : Type}

/-- Polling drives the host and nothing else. -/
theorem later_pollWithin (fuel : Nat) (b : Bridge φ) (h : Host) :
    h.Later (b.pollWithin fuel h).2.2 ∧ (b.pollWithin fuel h).2.2.contexts = h.contexts := by
  induction fuel generalizing b h with
  | zero =>
    unfold pollWithin
    split
    · exact ⟨.refl h, rfl⟩
    · split <;> exact ⟨.refl h, rfl⟩
  | succ fuel ih =>
    unfold pollWithin
    split
    · exact ⟨.refl h, rfl⟩
    · split
      · exact ⟨.refl h, rfl⟩
      · next c hc =>
        exact ⟨(Host.later_drive h).trans (ih c h.drive.1).1,
          (ih c h.drive.1).2.trans (Host.contexts_drive h)⟩

/-- If nothing is ready, nothing changes. -/
theorem takeReady_eq_self {b c : Bridge φ} {h : Host} (ht : b.takeReady h = ([], c)) : c = b := by
  have nothing : (b.takeReady h).1 = [] := by rw [ht]
  have kept : b.timers.waiting.filter (fun w => (h.completion? w.signal).isNone)
      = b.timers.waiting := by
    rw [List.filter_eq_self]
    intro w hw
    rw [TimerTable.missed_of_takeReady nothing hw]
    rfl
  obtain ⟨context, waiting, nextId⟩ := b
  have taken := congrArg Prod.snd ht
  simp only [takeReady, TimerTable.takeReady] at taken kept
  rw [kept] at taken
  exact taken.symm

/-- A poll hands out what is ready at some later time, or nothing. -/
theorem pollWithin_cases (fuel : Nat) (b : Bridge φ) (h : Host) :
    ((b.pollWithin fuel h).1 = [] ∧ (b.pollWithin fuel h).2.1 = b)
      ∨ b.takeReady (b.pollWithin fuel h).2.2
        = ((b.pollWithin fuel h).1, (b.pollWithin fuel h).2.1) := by
  induction fuel generalizing b h with
  | zero =>
    unfold pollWithin
    split
    · exact Or.inl ⟨rfl, rfl⟩
    · split
      · next r rest c hr => exact Or.inr hr
      · next c hr => exact Or.inl ⟨rfl, takeReady_eq_self hr⟩
  | succ fuel ih =>
    unfold pollWithin
    split
    · exact Or.inl ⟨rfl, rfl⟩
    · split
      · next r rest c hr => exact Or.inr hr
      · next c hr =>
        obtain rfl := takeReady_eq_self hr
        exact ih c h.drive.1

/-- What is handed out and what stays are what was waiting. -/
theorem pollWithin_perm (fuel : Nat) (b : Bridge φ) (h : Host) :
    ((b.pollWithin fuel h).1.map ReadyTimer.entry
        ++ (b.pollWithin fuel h).2.1.timers.waiting.map WaitingTimer.entry).Perm
      (b.timers.waiting.map WaitingTimer.entry) := by
  rcases pollWithin_cases fuel b h with ⟨ready, same⟩ | taken
  · rw [ready, same]
    exact .refl _
  · have split := TimerTable.takeReady_perm b.timers (b.pollWithin fuel h).2.2.completion?
    have hr : (b.pollWithin fuel h).1
        = (b.timers.takeReady (b.pollWithin fuel h).2.2.completion?).1 :=
      (congrArg Prod.fst taken).symm
    have hw : (b.pollWithin fuel h).2.1.timers
        = (b.timers.takeReady (b.pollWithin fuel h).2.2.completion?).2 :=
      (congrArg (fun p => p.2.timers) taken).symm
    rw [hr, hw]
    exact split

theorem mem_of_mem_pollWithin {fuel : Nat} {b : Bridge φ} {h : Host} {w : WaitingTimer Signal φ}
    (hw : w ∈ (b.pollWithin fuel h).2.1.timers.waiting) : w ∈ b.timers.waiting := by
  rcases pollWithin_cases fuel b h with ⟨-, same⟩ | taken
  · rw [same] at hw
    exact hw
  · rw [← congrArg (fun p => p.2.timers.waiting) taken] at hw
    exact (List.mem_filter.mp hw).1

/-- A timer that is handed out has fired, if the host scheduled all that were
waiting. -/
theorem result_of_mem_pollWithin {fuel : Nat} {b : Bridge φ} {h : Host}
    (scheduled : ∀ w ∈ b.timers.waiting, w.signal ≠ .cancelled) {r : ReadyTimer φ}
    (hr : r ∈ (b.pollWithin fuel h).1) : r.result = .ok () := by
  rcases pollWithin_cases fuel b h with ⟨ready, -⟩ | taken
  · rw [ready] at hr
    cases hr
  · rw [← congrArg Prod.fst taken] at hr
    obtain ⟨w, hw, c, hc, rfl⟩ := TimerTable.mem_takeReady hr
    exact Host.result_of_completion? hc (scheduled w hw)

/-! ### Nothing is waiting after an empty poll -/

theorem size_drive_lt {h : Host} (hp : h.timers.pending ≠ []) :
    h.drive.1.timers.size < h.timers.size := by
  unfold Host.drive
  cases hd : h.timers.nextDeadline? with
  | none => exact absurd (TimerQueue.nextDeadline?_eq_none_iff.mp hd) hp
  | some d =>
    refine TimerQueue.size_takeDue_lt hd ?_
    show d ≤ h.clock.latest d
    unfold Instant.latest
    split
    · exact Nat.le_refl _
    · next hle => exact Nat.le_of_not_le hle

/-- Nothing is ready although timers are waiting only if one of them is pending. -/
theorem pending_of_takeReady {b : Bridge φ} {h : Host}
    (answered : ∀ w ∈ b.timers.waiting, h.Answers w.signal) (hw : b.timers.waiting ≠ [])
    (hr : (b.takeReady h).1 = []) : h.timers.pending ≠ [] := by
  obtain ⟨w, rest, hcons⟩ := List.exists_cons_of_ne_nil hw
  have mem : w ∈ b.timers.waiting := hcons ▸ List.mem_cons_self
  have notReady : h.completion? w.signal = none := TimerTable.missed_of_takeReady hr mem
  have answer := answered w mem
  cases hs : w.signal with
  | cancelled => rw [hs] at notReady; cases notReady
  | scheduled order =>
    rw [hs] at notReady answer
    rcases answer with ⟨t, ht, -⟩ | fired
    · exact List.ne_nil_of_mem ht
    · simp only [Host.completion?, Option.map_eq_none_iff] at notReady
      rw [notReady] at fired
      cases fired

/-- If all signals will be answered, a poll with as many drives as timers are
pending comes back empty only if no timer is waiting. -/
theorem waiting_eq_nil_of_pollWithin (fuel : Nat) (b : Bridge φ) (h : Host)
    (enough : h.timers.size ≤ fuel) (answered : ∀ w ∈ b.timers.waiting, h.Answers w.signal)
    (empty : (b.pollWithin fuel h).1 = []) : b.timers.waiting = [] := by
  induction fuel generalizing b h with
  | zero =>
    by_contra hw
    have idle : h.timers.pending = [] := List.eq_nil_of_length_eq_zero (Nat.le_zero.mp enough)
    refine pending_of_takeReady answered hw ?_ idle
    unfold pollWithin at empty
    rw [if_neg (by simpa using hw)] at empty
    split at empty
    · cases empty
    · next c hc => rw [hc]
  | succ fuel ih =>
    by_contra hw
    unfold pollWithin at empty
    rw [if_neg (by simpa using hw)] at empty
    split at empty
    · cases empty
    · next c hc =>
      have driven := size_drive_lt (pending_of_takeReady answered hw (by rw [hc]))
      obtain rfl := takeReady_eq_self hc
      refine hw (ih c h.drive.1 (by omega) (fun w hw => ?_) empty)
      exact (Host.later_drive h).answers _ (answered w hw)

end Bridge
end TaskHost
