/-
# Waits that drive as often as needed

A driver is a sequence of calls, each of which may use the completer and tells whether driving
can go on. A wait can end after the first so many of them if the cell is ready then or the last
one said to stop (`Deferred.EndsAt`). A wait makes the calls up to the first place where it can
end, none of those that come later, and brings what is in the cell there
(`Deferred.waitWith_least`); where it can end nowhere it goes on for ever
(`Deferred.drives_gt`). If driving never stops before the cell is filled (`Deferred.Obliging`)
this is the result that the completer was used for (`Deferred.waitWith_exact`). A host that is
driven for a timer is such a driver, and its wait is a wait for the timer's cell
(`Host.waitWith_await`).

Key definitions: `Deferred.afterCalls`, `Deferred.EndsAt`, `Deferred.Obliging`, `Host.cellOf`,
`Host.driver`.
Key theorems: `Deferred.waitWith_least`, `Deferred.drives_gt`, `Deferred.waitWith_exact`,
`Host.waitWith_await`.
-/
import Mathlib.Order.Bounds.Basic
import TaskHost.Deferred
import TaskHost.Proofs.Waits

namespace TaskHost
namespace Deferred

variable {α : Type} {d : Deferred α} {driver : Nat → Drive α}

/-! ### The cell -/

theorem eq_pending_of_not_ready (unready : d.isReady = false) : d = .pending := by
  cases d with
  | pending => rfl
  | complete c => cases unready
  | taken => cases unready

theorem apply_of_ready (v : Drive α) (ready : d.isReady = true) : v.apply d = d := by
  unfold Drive.apply
  cases d with
  | pending => cases ready
  | complete c => cases v.completion <;> rfl
  | taken => cases v.completion <;> rfl

theorem apply_pending (v : Drive α) :
    v.apply .pending = v.completion.elim .pending .complete := by
  unfold Drive.apply
  cases v.completion <;> rfl

/-! ### One call of a wait -/

theorem waitWith_of_ready (ready : d.isReady = true) (drives : List (Drive α)) :
    d.waitWith drives = ⟨d.tryTake.1, 0⟩ := by
  cases d with
  | pending => cases ready
  | complete c => cases drives <;> rfl
  | taken => cases drives <;> rfl

theorem waitWith_on {v : Drive α} (on : v.goOn = true) (rest : List (Drive α)) :
    pending.waitWith (v :: rest)
      = ⟨((v.apply .pending).waitWith rest).result,
        ((v.apply .pending).waitWith rest).drives + 1⟩ := by
  rw [waitWith, on]
  rfl

theorem waitWith_stop {v : Drive α} (stop : v.goOn = false) (rest : List (Drive α)) :
    pending.waitWith (v :: rest) = ⟨(v.apply .pending).tryTake.1, 1⟩ := by
  rw [waitWith, stop]
  rfl

theorem drives_pos (drives : List (Drive α)) : 0 < (pending.waitWith drives).drives := by
  cases drives with
  | nil => exact Nat.one_pos
  | cons v rest =>
    cases on : v.goOn with
    | false =>
      rw [waitWith_stop on]
      exact Nat.one_pos
    | true =>
      rw [waitWith_on on]
      exact Nat.succ_pos _

/-! ### The calls of a driver -/

/-- The first calls of a driver. -/
def firstCalls (driver : Nat → Drive α) (n : Nat) : List (Drive α) := (List.range n).map driver

/-- The cell after the first calls of a driver. -/
def afterCalls (d : Deferred α) (driver : Nat → Drive α) : Nat → Deferred α
  | 0 => d
  | n + 1 => (driver n).apply (d.afterCalls driver n)

/-- Whether a wait can end after the first calls of a driver: the cell is ready then, or the
last of them said to stop. -/
def EndsAt (d : Deferred α) (driver : Nat → Drive α) (n : Nat) : Prop :=
  (d.afterCalls driver n).isReady = true ∨ ∃ k, n = k + 1 ∧ (driver k).goOn = false

/-- Whether a driver has filled the cell by the time when it first says to stop. -/
def Obliging (d : Deferred α) (driver : Nat → Drive α) : Prop :=
  ∀ k, (driver k).goOn = false → (∀ i < k, (driver i).goOn = true) →
    (d.afterCalls driver (k + 1)).isReady = true

/-- The driver that is left after the first call. -/
def later (driver : Nat → Drive α) (n : Nat) : Drive α := driver (n + 1)

theorem firstCalls_succ (driver : Nat → Drive α) (n : Nat) :
    firstCalls driver (n + 1) = driver 0 :: firstCalls (later driver) n := by
  rw [firstCalls, List.range_succ_eq_map, List.map_cons, List.map_map]
  rfl

theorem afterCalls_later (d : Deferred α) (driver : Nat → Drive α) (n : Nat) :
    ((driver 0).apply d).afterCalls (later driver) n = d.afterCalls driver (n + 1) := by
  induction n with
  | zero => rfl
  | succ n ih => exact congrArg (driver (n + 1)).apply ih

theorem endsAt_zero_iff : d.EndsAt driver 0 ↔ d.isReady = true := by
  constructor
  · rintro (ready | ⟨k, none, -⟩)
    · exact ready
    · cases none
  · exact .inl

theorem endsAt_succ_iff {n : Nat} : d.EndsAt driver (n + 1)
    ↔ (d.afterCalls driver (n + 1)).isReady = true ∨ (driver n).goOn = false := by
  refine or_congr_right ⟨?_, fun stop => ⟨n, rfl, stop⟩⟩
  rintro ⟨k, same, stop⟩
  cases same
  exact stop

instance (d : Deferred α) (driver : Nat → Drive α) : (n : Nat) → Decidable (d.EndsAt driver n)
  | 0 => decidable_of_iff _ endsAt_zero_iff.symm
  | _ + 1 => decidable_of_iff _ endsAt_succ_iff.symm

theorem eq_pending_of_not_endsAt (goes : ¬ d.EndsAt driver 0) : d = .pending :=
  eq_pending_of_not_ready (Bool.eq_false_iff.mpr fun ready => goes (endsAt_zero_iff.mpr ready))

theorem endsAt_later_iff (on : (driver 0).goOn = true) (n : Nat) :
    ((driver 0).apply d).EndsAt (later driver) n ↔ d.EndsAt driver (n + 1) := by
  rw [endsAt_succ_iff, ← afterCalls_later]
  cases n with
  | zero => simp [endsAt_zero_iff, on, afterCalls]
  | succ n => exact endsAt_succ_iff

/-- No call has used the completer of a cell that is still pending. -/
theorem unused_of_pending {n : Nat} (unready : (d.afterCalls driver n).isReady = false) :
    ∀ i < n, (driver i).completion = none := by
  induction n with
  | zero => exact fun i none => absurd none (Nat.not_lt_zero i)
  | succ n ih =>
    have before : (d.afterCalls driver n).isReady = false := by
      refine Bool.eq_false_iff.mpr fun ready => ?_
      rw [afterCalls, apply_of_ready _ ready, ready] at unready
      cases unready
    rw [afterCalls, eq_pending_of_not_ready before, apply_pending] at unready
    intro i below
    rcases Nat.lt_succ_iff_lt_or_eq.mp below with earlier | rfl
    · exact ih before i earlier
    · cases used : (driver i).completion with
      | none => rfl
      | some c =>
        rw [used] at unready
        cases unready

/-- A pending cell that becomes ready is filled by the first call that uses the completer. -/
theorem exists_used_of_ready {n : Nat} (ready : (pending.afterCalls driver n).isReady = true) :
    ∃ k < n, ∃ c, (driver k).completion = some c ∧ (∀ i < k, (driver i).completion = none)
      ∧ pending.afterCalls driver (k + 1) = .complete c := by
  induction n with
  | zero => cases ready
  | succ n ih =>
    cases before : (pending.afterCalls driver n).isReady with
    | true =>
      obtain ⟨k, below, used⟩ := ih before
      exact ⟨k, Nat.lt_succ_of_lt below, used⟩
    | false =>
      rw [afterCalls, eq_pending_of_not_ready before, apply_pending] at ready
      cases used : (driver n).completion with
      | none =>
        rw [used] at ready
        cases ready
      | some c =>
        refine ⟨n, Nat.lt_succ_self n, c, used, unused_of_pending before, ?_⟩
        rw [afterCalls, eq_pending_of_not_ready before, apply_pending, used]
        rfl

/-! ### Where a wait ends -/

/-- **A wait makes the calls up to the first place where it can end**, and brings what is in
the cell there. -/
theorem waitWith_least {n : Nat} (least : IsLeast {n | d.EndsAt driver n} n)
    (more : List (Drive α)) :
    d.waitWith (firstCalls driver n ++ more) = ⟨(d.afterCalls driver n).tryTake.1, n⟩ := by
  induction n generalizing d driver with
  | zero => exact waitWith_of_ready (endsAt_zero_iff.mp least.1) _
  | succ n ih =>
    obtain rfl : d = .pending :=
      eq_pending_of_not_endsAt fun ends => Nat.not_succ_le_zero n (least.2 ends)
    rw [firstCalls_succ, List.cons_append]
    cases on : (driver 0).goOn with
    | false =>
      have first : n + 1 ≤ 1 := least.2 (.inr ⟨0, rfl, on⟩)
      obtain rfl : n = 0 := by omega
      rw [waitWith_stop on, afterCalls, afterCalls]
    | true =>
      have rest : IsLeast {n | ((driver 0).apply pending).EndsAt (later driver) n} n :=
        ⟨(endsAt_later_iff on n).mpr least.1, fun m ends =>
          Nat.le_of_succ_le_succ (least.2 ((endsAt_later_iff on m).mp ends))⟩
      rw [waitWith_on on, ih rest, afterCalls_later]

/-- A wait is still going on as long as it could not end. -/
theorem drives_gt {n : Nat} (goes : ∀ m ≤ n, ¬ d.EndsAt driver m) (more : List (Drive α)) :
    n < (d.waitWith (firstCalls driver n ++ more)).drives := by
  induction n generalizing d driver with
  | zero =>
    obtain rfl := eq_pending_of_not_endsAt (goes 0 (Nat.le_refl 0))
    exact drives_pos more
  | succ n ih =>
    obtain rfl := eq_pending_of_not_endsAt (goes 0 (Nat.zero_le _))
    have on : (driver 0).goOn = true := by
      by_contra stop
      exact goes 1 (Nat.le_add_left 1 n) (endsAt_succ_iff.mpr (.inr (Bool.eq_false_iff.mpr stop)))
    rw [firstCalls_succ, List.cons_append, waitWith_on on]
    refine Nat.succ_lt_succ (ih fun m few ends => ?_)
    exact goes (m + 1) (Nat.succ_le_succ few) ((endsAt_later_iff on m).mp ends)

theorem Obliging.isReady {n : Nat} (obliging : d.Obliging driver)
    (least : IsLeast {n | d.EndsAt driver n} n) : (d.afterCalls driver n).isReady = true := by
  rcases least.1 with ready | ⟨k, rfl, stop⟩
  · exact ready
  · refine obliging k stop fun i earlier => ?_
    by_contra stopped
    have ends : k + 1 ≤ i + 1 := least.2 (.inr ⟨i, rfl, Bool.eq_false_iff.mpr stopped⟩)
    omega

/-- **A wait drives exactly as often as needed.** Where the cell is ready it makes no call.
Otherwise it makes the calls up to the first one after which the cell is ready or that says to
stop. If driving does not stop before the cell is filled, the last of these calls is the one
that uses the completer, and the result is the one that it is used for, whether or not that call
says to go on. A wait that can end nowhere makes every call. -/
theorem waitWith_exact (d : Deferred α) (driver : Nat → Drive α) :
    (d.isReady = true → ∀ drives, d.waitWith drives = ⟨d.tryTake.1, 0⟩)
    ∧ (∀ n, IsLeast {n | d.EndsAt driver n} n → ∀ more,
      d.waitWith (firstCalls driver n ++ more) = ⟨(d.afterCalls driver n).tryTake.1, n⟩)
    ∧ (d.isReady = false → d.Obliging driver → ∀ n, IsLeast {n | d.EndsAt driver n} n →
      ∃ k c, n = k + 1 ∧ (driver k).completion = some c ∧ (∀ i < k, (driver i).completion = none)
        ∧ ∀ more, d.waitWith (firstCalls driver n ++ more) = ⟨some c.result, n⟩)
    ∧ ((∀ n, ¬ d.EndsAt driver n) → ∀ n more,
      n < (d.waitWith (firstCalls driver n ++ more)).drives) := by
  refine ⟨fun ready => waitWith_of_ready ready, fun n => waitWith_least, ?_, fun goes n =>
    drives_gt fun m _ => goes m⟩
  intro unready obliging n least
  obtain rfl := eq_pending_of_not_ready unready
  obtain ⟨k, below, c, used, unused, filled⟩ := exists_used_of_ready (obliging.isReady least)
  have last : n ≤ k + 1 := least.2 (.inl (by rw [filled]; rfl))
  obtain rfl : n = k + 1 := by omega
  refine ⟨k, c, rfl, used, unused, fun more => ?_⟩
  rw [waitWith_least least, filled]
  rfl

/-- A driver that uses the completer in its third call and says to stop with it. -/
def thirdTime (n : Nat) : Drive Int :=
  if n = 2 then ⟨some ⟨1, .ok 1⟩, false⟩ else ⟨none, true⟩

theorem waitWith_exact_thirdTime :
    IsLeast {n | pending.EndsAt thirdTime n} 3 ∧ pending.Obliging thirdTime
      ∧ ∀ more, pending.waitWith (firstCalls thirdTime 3 ++ more) = ⟨some (.ok 1), 3⟩ := by
  have early : ∀ n < 3, ¬ pending.EndsAt thirdTime n := by decide
  have least : IsLeast {n | pending.EndsAt thirdTime n} 3 :=
    ⟨by decide, fun n ends => Nat.le_of_not_lt fun before => early n before ends⟩
  have obliging : pending.Obliging thirdTime := by
    intro k stop _
    obtain rfl : k = 2 := by
      by_contra other
      simp [thirdTime, other] at stop
    rfl
  obtain ⟨k, c, same, used, -, ends⟩ :=
    (waitWith_exact pending thirdTime).2.2.1 rfl obliging 3 least
  obtain rfl : k = 2 := (Nat.succ.inj same).symm
  obtain rfl : c = ⟨1, .ok 1⟩ := (Option.some.inj used).symm
  exact ⟨least, obliging, ends⟩

end Deferred

/-! ### Hosts as drivers -/

namespace Host

open Deferred (firstCalls waitWith_of_ready waitWith_on waitWith_stop firstCalls_succ apply_pending)

variable {σ : Signal}

/-- The cell of a signal, as a host has it. -/
def cellOf (h : Host) (σ : Signal) : Deferred Unit := (h.completion? σ).elim .pending .complete

/-- The host after a number of drives. -/
def driven (h : Host) : Nat → Host
  | 0 => h
  | n + 1 => h.drive.1.driven n

/-- A host as the driver of a wait for a signal. -/
def driver (h : Host) (σ : Signal) (n : Nat) : Deferred.Drive Unit :=
  ⟨(h.driven (n + 1)).completion? σ, (h.driven n).drive.2⟩

theorem apply_driver (h : Host) (σ : Signal) :
    (h.driver σ 0).apply .pending = h.drive.1.cellOf σ := apply_pending _

/-- A wait of a host is a wait for the cell of its signal. -/
theorem Waits.waitWith_eq {n : Nat} {h k : Host} {r : Except HostError Unit}
    (waits : Waits σ n h k r) :
    k = h.driven n ∧ ∀ more, (h.cellOf σ).waitWith (firstCalls (h.driver σ) n ++ more)
      = ⟨some r, n⟩ := by
  induction waits with
  | @done h c found =>
    have cell : h.cellOf σ = .complete c := by rw [cellOf, found]; rfl
    refine ⟨rfl, fun more => ?_⟩
    rw [cell]
    exact waitWith_of_ready rfl more
  | @drove n h k l r missed fired rest ih =>
    have cell : h.cellOf σ = .pending := by rw [cellOf, missed]; rfl
    have next : h.drive.1 = k := congrArg Prod.fst fired
    have on : (h.driver σ 0).goOn = true := congrArg Prod.snd fired
    have others : Deferred.later (h.driver σ) = k.driver σ := next ▸ rfl
    refine ⟨ih.1.trans (next ▸ rfl), fun more => ?_⟩
    rw [cell, firstCalls_succ, others, List.cons_append, waitWith_on on, apply_driver, next,
      ih.2 more]
  | @blocked h k c missed idle found =>
    have cell : h.cellOf σ = .pending := by rw [cellOf, missed]; rfl
    have next : h.drive.1 = k := congrArg Prod.fst idle
    have stop : (h.driver σ 0).goOn = false := congrArg Prod.snd idle
    refine ⟨next.symm, fun more => ?_⟩
    rw [cell, firstCalls_succ, List.cons_append, waitWith_stop stop, apply_driver, next, cellOf,
      found]
    rfl

/-- **A wait for a signal that will be answered is a wait for its cell**, which the host drives
at most as often as it has pending timers. -/
theorem waitWith_await {h : Host} (answered : h.Answers σ) :
    ∃ n ≤ h.timers.size, (h.await σ).1 = h.driven n ∧ ∀ more,
      (h.cellOf σ).waitWith (firstCalls (h.driver σ) n ++ more) = ⟨some (h.await σ).2, n⟩ := by
  obtain ⟨n, few, waits⟩ := waits_await answered
  exact ⟨n, few, waits.waitWith_eq⟩

end Host
end TaskHost
